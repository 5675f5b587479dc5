import Xpedite.Collection.DataSamples
import Xpedite.Lib.Snoc

/-!
What `flush` takes out of the buffer that is being filled.  It reads on behind the last
sample, where bytes of an earlier lap are left, and takes a record for a sample by its time
stamp alone.
-/

namespace Xpedite.Collection

open Lib Samples Framework

/-- The records from `this` on with stamps that ascend from `minTsc` and stay below `maxTsc`. -/
def credible (memory : Memory) (stop : Nat) (minTsc maxTsc : UInt64) (this : Nat) : List Nat :=
  if this < stop then
    if minTsc < tsc memory this ∧ tsc memory this < maxTsc then
      this :: credible memory stop (tsc memory this) maxTsc (next memory this)
    else []
  else []
termination_by stop - this
decreasing_by
  have further := Collector.lt_next memory this
  omega

namespace State

variable (pool : Nat) (state : State) (now : UInt64)

/-- What the thread has put in the buffer of its write index since it was given it. -/
def lap : List Sample := state.writer.written state.writer.writeIndex

def lapEnd : Nat := Collector.guardedEnd (bufferAt pool state.writer.writeIndex)

/-- The records behind the last sample of the lap that pass for further ones. -/
def leftovers : List Nat :=
  credible state.writer.thread.memory (state.lapEnd pool)
    ((state.lap.map fun sample => sample.tsc.val).getLastD 0) now
    state.writer.thread.samplesBufferPtr

/-- What a flush gives to `persistSamples`. -/
def flushed : List Reading :=
  (flush pool state now).1.persisted.drop state.buffer.persisted.length

def FlushesWritten : Prop :=
  ∀ reading ∈ state.flushed pool now, ∃ sample ∈ state.lap, reading = sample.reading

/--
No leftover is persisted: each of them is taken for a sample that has been persisted
before, or they lead so far beyond the guard that `checkOverflow` throws, or the flush
stops at a first sample stamped 0.
-/
def LeavesLeftovers : Prop :=
  (∀ this ∈ state.leftovers pool now,
      tsc state.writer.thread.memory this ≤ state.buffer.lastSampledTsc) ∨
    (∃ this ∈ state.leftovers pool now,
      state.lapEnd pool + maxSize ≤ next state.writer.thread.memory this) ∨
    (state.lap.map fun sample => sample.tsc.val).head? = some 0

end State

section Credible

variable {memory : Memory}

theorem credible_path (stop : Nat) (minTsc maxTsc : UInt64) (this : Nat) :
    ∃ final, Collector.Path memory this final (credible memory stop minTsc maxTsc this) ∧
      (final < stop →
        tsc memory final ≤
            ((credible memory stop minTsc maxTsc this).map (tsc memory)).getLastD minTsc ∨
          maxTsc ≤ tsc memory final) := by
  fun_induction credible memory stop minTsc maxTsc this with
  | case1 minTsc this inside consistent ih =>
      obtain ⟨final, path, ends⟩ := ih
      refine ⟨final, ⟨rfl, path⟩, ?_⟩
      rwa [List.map_cons, List.getLastD_cons]
  | case2 minTsc this inside inconsistent =>
      refine ⟨this, rfl, ?_⟩
      intro _
      rw [not_and_or, UInt64.not_lt, UInt64.not_lt] at inconsistent
      exact inconsistent
  | case3 minTsc this outside => exact ⟨this, rfl, fun inside => absurd inside outside⟩

theorem lt_of_mem_credible {stop : Nat} {minTsc maxTsc : UInt64} {this other : Nat}
    (listed : other ∈ credible memory stop minTsc maxTsc this) :
    other < stop ∧ minTsc < tsc memory other ∧ tsc memory other < maxTsc := by
  fun_induction credible memory stop minTsc maxTsc this with
  | case1 minTsc this inside consistent ih =>
      rcases List.mem_cons.mp listed with rfl | later
      · exact ⟨inside, consistent⟩
      · obtain ⟨within, above, below⟩ := ih later
        exact ⟨within, UInt64.lt_trans consistent.1 above, below⟩
  | case2 minTsc this inside inconsistent => cases listed
  | case3 minTsc this outside => cases listed

theorem credible_rising (stop : Nat) (minTsc maxTsc : UInt64) (this : Nat) :
    ((credible memory stop minTsc maxTsc this).map (tsc memory)).Pairwise (· < ·) := by
  fun_induction credible memory stop minTsc maxTsc this with
  | case1 minTsc this inside consistent ih =>
      rw [List.map_cons]
      refine List.pairwise_cons.mpr ⟨?_, ih⟩
      intro stamp listed
      obtain ⟨other, later, rfl⟩ := List.mem_map.mp listed
      exact (lt_of_mem_credible later).2.1
  | case2 minTsc this inside inconsistent => exact List.Pairwise.nil
  | case3 minTsc this outside => exact List.Pairwise.nil

end Credible

section Flush

variable {pool : Nat} {state : State} {now : UInt64}

def scanBehind (pool : Nat) (state : State) (now : UInt64) : Collector.Scan :=
  Collector.scanConsistent state.writer.thread.memory (state.lapEnd pool) 0 now
    (state.buffer.startScan (bufferAt pool state.writer.writeIndex) 0)

theorem flush_fst (pool : Nat) (state : State) (now : UInt64) :
    (flush pool state now).1 =
      (Collector.persistScan state.buffer state.writer.thread.memory (state.lapEnd pool)
        (scanBehind pool state now)).1 := by
  rw [flush, Collector.flush]
  split
  · rename_i persisted overflow
    exact (congrArg Prod.fst overflow).symm
  · rename_i persisted complete
    exact (congrArg Prod.fst complete).symm

theorem flushed_of_path {kept : List Nat}
    (path : Collector.Path state.writer.thread.memory (scanBehind pool state now).first
      (scanBehind pool state now).cursor kept)
    (near : (scanBehind pool state now).cursor < state.lapEnd pool + maxSize) :
    state.flushed pool now = kept.map (reading state.writer.thread.memory) := by
  rw [State.flushed, flush_fst, Collector.persistScan_of_path state.buffer _ path near]
  exact List.drop_left

theorem flushed_of_far
    (far : state.lapEnd pool + maxSize ≤ (scanBehind pool state now).cursor) :
    state.flushed pool now = [] := by
  rw [State.flushed, flush_fst, Collector.persistScan_of_far state.buffer far]
  exact List.drop_length

theorem flushed_of_stopped (zero : tsc state.writer.thread.memory
    (bufferAt pool state.writer.writeIndex) = 0) : state.flushed pool now = [] := by
  have inside : bufferAt pool state.writer.writeIndex < state.lapEnd pool := by
    rw [State.lapEnd, guardedEnd_eq, bufferGuardOffset_eq]
    omega
  have stopped : scanBehind pool state now =
      state.buffer.startScan (bufferAt pool state.writer.writeIndex) 0 := by
    rw [scanBehind, Collector.scanConsistent]
    refine (if_pos inside).trans (if_pos (Or.inl ?_))
    exact zero ▸ UInt64.le_refl 0
  refine @flushed_of_path pool state now [] ?_ ?_
  · rw [stopped]
    rfl
  · rw [stopped]
    exact Nat.lt_of_lt_of_le inside (Nat.le_add_right _ _)

end Flush

structure Lap (pool : Nat) (state : State) (now : UInt64) : Prop where
  holds : state.writer.thread.memory.Holds (bufferAt pool state.writer.writeIndex)
    (streamBytes state.lap)
  ptr : state.writer.thread.samplesBufferPtr =
    bufferAt pool state.writer.writeIndex + total Sample.length state.lap
  packs : Packs Sample.length bufferGuardOffset state.lap
  rising : (0 :: state.lap.map fun sample => sample.tsc.val).Pairwise (· < ·)
  early : ∀ sample ∈ state.lap, sample.tsc.val < now

namespace Lap

variable {pool : Nat} {state : State} {now : UInt64} (lap : Lap pool state now)

include lap

theorem lt_of_mem_leftovers {this : Nat} (left : this ∈ state.leftovers pool now) {stamp : UInt64}
    (listed : stamp ∈ 0 :: state.lap.map fun sample => sample.tsc.val) :
    stamp < tsc state.writer.thread.memory this := by
  have above := (lt_of_mem_credible left).2.1
  rcases eq_or_rel_getLastD lap.rising listed with last | earlier
  · rwa [last]
  · exact UInt64.lt_trans earlier above

theorem scanned : ∃ final,
    Collector.Path state.writer.thread.memory state.writer.thread.samplesBufferPtr final
      (state.leftovers pool now) ∧
    (scanBehind pool state now).cursor = final ∧
    Collector.Path state.writer.thread.memory (scanBehind pool state now).first final
      ((places Sample.length (bufferAt pool state.writer.writeIndex) state.lap ++
        state.leftovers pool now).filter fun this =>
          state.buffer.lastSampledTsc < tsc state.writer.thread.memory this) := by
  obtain ⟨final, behind, ends⟩ := @credible_path state.writer.thread.memory (state.lapEnd pool)
    ((state.lap.map fun sample => sample.tsc.val).getLastD 0) now
    state.writer.thread.samplesBufferPtr
  have front := (Collector.path_of_holds lap.holds).1
  rw [← lap.ptr] at front
  have path := front.append behind
  have stamps := Collector.map_tsc_places lap.holds
  have rising : (0 :: (places Sample.length (bufferAt pool state.writer.writeIndex) state.lap ++
      state.leftovers pool now).map (tsc state.writer.thread.memory)).Pairwise (· < ·) := by
    rw [List.map_append, stamps, ← List.cons_append]
    refine List.pairwise_append.mpr ⟨lap.rising, credible_rising _ _ _ _, ?_⟩
    intro earlier listed later listed'
    obtain ⟨this, member, rfl⟩ := List.mem_map.mp listed'
    exact lap.lt_of_mem_leftovers member listed
  refine ⟨final, behind, ?_⟩
  have followed := @Collector.scanConsistent_eq_follow state.writer.thread.memory
    (state.lapEnd pool) final 0 now
    (places Sample.length (bufferAt pool state.writer.writeIndex) state.lap ++
      state.leftovers pool now)
    (state.buffer.startScan (bufferAt pool state.writer.writeIndex) 0) path ?_ rising ?_ ?_
  · rw [scanBehind, followed]
    exact Collector.follow_path rfl path (List.pairwise_cons.mp rising).2
  · intro this listed
    rcases List.mem_append.mp listed with inLap | left
    · exact lt_of_mem_places lap.packs inLap
    · exact (lt_of_mem_credible left).1
  · intro this listed
    rcases List.mem_append.mp listed with inLap | left
    · have stamp : tsc state.writer.thread.memory this ∈ _ := List.mem_map_of_mem inLap
      rw [stamps] at stamp
      obtain ⟨sample, member, same⟩ := List.mem_map.mp stamp
      rw [← same]
      exact lap.early sample member
    · exact (lt_of_mem_credible left).2.2
  · rw [List.map_append, getLastD_append, stamps]
    exact ends

theorem far_iff :
    state.lapEnd pool + maxSize ≤ (scanBehind pool state now).cursor ↔
      ∃ this ∈ state.leftovers pool now,
        state.lapEnd pool + maxSize ≤ next state.writer.thread.memory this := by
  obtain ⟨final, behind, rfl, -⟩ := lap.scanned
  constructor
  · intro far
    have bound := lap.packs.total_lt Sample.length_le (Nat.succ_pos _)
    have ptr := lap.ptr
    have some_ : state.leftovers pool now ≠ [] := by
      -- the samples of the lap do not lead that far
      intro none_
      rw [none_] at behind
      have same : state.writer.thread.samplesBufferPtr = (scanBehind pool state now).cursor :=
        behind
      rw [State.lapEnd, guardedEnd_eq, maxSize] at far
      omega
    obtain ⟨this, left, last⟩ := behind.exists_next_eq some_
    exact ⟨this, left, last ▸ far⟩
  · rintro ⟨this, left, beyond⟩
    exact Nat.le_trans beyond (behind.next_le left)

theorem flushed_eq
    (near : ¬state.lapEnd pool + maxSize ≤ (scanBehind pool state now).cursor) :
    state.flushed pool now =
      (state.lap.filter fun sample => state.buffer.lastSampledTsc < sample.tsc.val).map
          Sample.reading ++
        ((state.leftovers pool now).filter fun this =>
          state.buffer.lastSampledTsc < tsc state.writer.thread.memory this).map
          (reading state.writer.thread.memory) := by
  obtain ⟨final, -, rfl, kept⟩ := lap.scanned
  rw [flushed_of_path kept (Nat.not_le.mp near), List.filter_append, List.map_append,
    Collector.map_reading_filter lap.holds]

theorem flushesWritten_iff :
    state.FlushesWritten pool now ↔
      (∀ this ∈ state.leftovers pool now,
          tsc state.writer.thread.memory this ≤ state.buffer.lastSampledTsc) ∨
        ∃ this ∈ state.leftovers pool now,
          state.lapEnd pool + maxSize ≤ next state.writer.thread.memory this := by
  rw [← lap.far_iff]
  by_cases far : state.lapEnd pool + maxSize ≤ (scanBehind pool state now).cursor
  · refine iff_of_true ?_ (Or.inr far)
    intro reading persisted
    rw [flushed_of_far far] at persisted
    cases persisted
  · have persisted := lap.flushed_eq far
    rw [or_iff_left far]
    constructor
    · intro written this left
      by_contra later
      -- a leftover that is persisted is later than every sample of the lap
      have member : reading state.writer.thread.memory this ∈ state.flushed pool now := by
        rw [persisted]
        refine List.mem_append_right _ (List.mem_map_of_mem (List.mem_filter.mpr ⟨left, ?_⟩))
        exact decide_eq_true (UInt64.not_le.mp later)
      obtain ⟨sample, inLap, same⟩ := written _ member
      have stamp : tsc state.writer.thread.memory this = sample.tsc.val := congrArg Reading.tsc same
      have less := lap.lt_of_mem_leftovers left
        (List.mem_cons_of_mem _ (List.mem_map_of_mem inLap))
      rw [stamp] at less
      exact UInt64.lt_irrefl _ less
    · intro early
      have none_ : (state.leftovers pool now).filter (fun this =>
          state.buffer.lastSampledTsc < tsc state.writer.thread.memory this) = [] := by
        rw [List.filter_eq_nil_iff]
        intro this left
        simpa using early this left
      rw [none_, List.map_nil, List.append_nil] at persisted
      intro reading listed
      rw [persisted] at listed
      obtain ⟨sample, inLap, same⟩ := List.mem_map.mp listed
      exact ⟨sample, (List.mem_filter.mp inLap).1, same.symm⟩

end Lap

theorem tsc_zero (this : Nat) : tsc (fun _ => 0) this = 0 := by
  have bytes : Memory.read (fun _ => 0) this 8 = bytesOf 8 0 := by
    rw [Memory.read, List.map_const', List.length_range']
    rfl
  have word : tscWord (fun _ => 0) this = 0 := by
    rw [tscWord, Memory.load64, Memory.load, bytes]
    rfl
  rw [tsc, word, UInt64.zero_and]

theorem rising_of_positive {stamps : List UInt64} (rising : stamps.Pairwise (· < ·))
    (positive : stamps.head? ≠ some 0) : (0 :: stamps).Pairwise (· < ·) := by
  cases stamps with
  | nil => exact List.pairwise_singleton _ _
  | cons first rest =>
      have above : 0 < first := by
        have nonzero : first ≠ 0 := fun zero => positive (by rw [zero]; rfl)
        exact UInt64.pos_iff_ne_zero.mpr nonzero
      refine List.pairwise_cons.mpr ⟨?_, rising⟩
      intro stamp listed
      rcases List.mem_cons.mp listed with rfl | later
      · exact above
      · exact UInt64.lt_trans above ((List.pairwise_cons.mp rising).1 stamp later)

theorem lap_of_reachable {pool : Nat} {samples : List Sample} {state : State} {now : UInt64}
    (reachable : Reachable pool samples state) (filling : state.writer.Filling pool)
    (increasing : samples.Pairwise fun earlier later => earlier.tsc.val < later.tsc.val)
    (past : ∀ sample ∈ samples, sample.tsc.val < now)
    (positive : (state.lap.map fun sample => sample.tsc.val).head? ≠ some 0) :
    Lap pool state now := by
  obtain ⟨laid, accounts, reads⟩ := reachable
  have inside := accounts.sublist state.writer.writeIndex
  refine ⟨laid.holds _ (Nat.le_refl _) (by omega), filling.ptr, laid.packs _, ?_, ?_⟩
  · have rising : (state.lap.map fun sample => sample.tsc.val).Pairwise (· < ·) :=
      List.pairwise_map.mpr (increasing.sublist inside)
    exact rising_of_positive rising positive
  · intro sample listed
    exact past sample (inside.subset listed)

theorem Reachable.flushesWritten_iff {pool : Nat} {samples : List Sample} {state : State}
    {now : UInt64} (reachable : Reachable pool samples state)
    (increasing : samples.Pairwise fun earlier later => earlier.tsc.val < later.tsc.val)
    (past : ∀ sample ∈ samples, sample.tsc.val < now) :
    state.FlushesWritten pool now ↔ state.LeavesLeftovers pool now := by
  rcases reachable.laid.current with unused | filling
  · -- the memory is as it was allocated
    have memory : state.writer.thread.memory = fun _ => 0 := by
      rw [unused.thread]
      rfl
    have none_ : state.lap = [] := by rw [State.lap, unused.writeIndex, unused.written]
    have stopped := @flushed_of_stopped pool state now (by rw [memory, tsc_zero])
    refine iff_of_true ?_ (Or.inl ?_)
    · intro reading listed
      rw [stopped] at listed
      cases listed
    · intro this left
      rw [memory, tsc_zero]
      exact UInt64.zero_le
  · by_cases zero : (state.lap.map fun sample => sample.tsc.val).head? = some 0
    · refine iff_of_true ?_ (Or.inr (Or.inr zero))
      have holds : state.writer.thread.memory.Holds (bufferAt pool state.writer.writeIndex)
          (streamBytes state.lap) := reachable.laid.holds _ (Nat.le_refl _) (by omega)
      have head := congrArg List.head? (Collector.map_tsc_places holds)
      rw [zero] at head
      have stamp : tsc state.writer.thread.memory (bufferAt pool state.writer.writeIndex) = 0 := by
        cases split : state.lap with
        | nil =>
            rw [split] at zero
            cases zero
        | cons sample rest =>
            rw [split] at head
            exact Option.some.inj head
      have stopped := @flushed_of_stopped pool state now stamp
      intro reading listed
      rw [stopped] at listed
      cases listed
    · have lap := lap_of_reachable reachable filling increasing past zero
      rw [lap.flushesWritten_iff, State.LeavesLeftovers]
      constructor
      · rintro (early | far)
        · exact Or.inl early
        · exact Or.inr (Or.inl far)
      · rintro (early | far | stamped)
        · exact Or.inl early
        · exact Or.inr far
        · exact absurd stamped zero

/-- Records that stand in memory, the first of which passes for a sample and the second does not. -/
theorem credible_of_holds {memory : Memory} {stop this : Nat} {minTsc maxTsc : UInt64}
    {garbage other : Sample} {rest : List Sample}
    (holds : memory.Holds this (streamBytes (garbage :: other :: rest))) (inside : this < stop)
    (above : minTsc < garbage.tsc.val) (below : garbage.tsc.val < maxTsc)
    (earlier : other.tsc.val ≤ garbage.tsc.val) :
    credible memory stop minTsc maxTsc this = [this] ∧ tsc memory this = garbage.tsc.val ∧
      next memory this = this + garbage.length := by
  rw [streamBytes, List.flatMap_cons, List.flatMap_cons, Memory.holds_append,
    Memory.holds_append] at holds
  have first := stands_of_holds holds.1
  have second := stands_of_holds holds.2.1
  have further : next memory this = this + garbage.length := by rw [next, first.size_eq]
  have inconsistent : ¬(garbage.tsc.val < other.tsc.val ∧ other.tsc.val < maxTsc) :=
    fun both => UInt64.not_lt.mpr earlier both.1
  refine ⟨?_, first.tsc_eq, further⟩
  rw [credible, if_pos inside, first.tsc_eq, if_pos ⟨above, below⟩, further, credible,
    second.tsc_eq, if_neg inconsistent, ite_self]

/-- The data of a sample, read as a sample without data. -/
def dataRead (data : BitVec 128) (small : (lowWord data).toNat < 2 ^ 62) : Sample where
  returnSite := highWord data
  tsc := ⟨lowWord data, small⟩
  data := none
  pmc := none

theorem drop_streamBytes (data : BitVec 128) (small : (lowWord data).toNat < 2 ^ 62) (time : Nat)
    (rest : List Sample) :
    (streamBytes (sampleAt data time :: rest)).drop 16 =
      streamBytes (dataRead data small :: rest) := by
  have split : streamBytes (sampleAt data time :: rest) =
      (wordBytes (flagged (sampleAt data time).kind (sampleAt data time).tsc.val) ++
        wordBytes (sampleAt data time).returnSite) ++
          (dataBytes (some data) ++ streamBytes rest) := by
    rw [streamBytes, List.flatMap_cons, Sample.bytes, ← streamBytes, List.append_assoc,
      List.append_assoc, List.append_assoc, List.append_assoc]
    rfl
  have head : (wordBytes (flagged (sampleAt data time).kind (sampleAt data time).tsc.val) ++
      wordBytes (sampleAt data time).returnSite).length = 16 := by
    rw [List.length_append, length_wordBytes, length_wordBytes]
  have fake : (dataRead data small).bytes = dataBytes (some data) := by
    rw [Sample.bytes, dataRead, dataBytes, dataBytes, pmcBytes, List.append_nil, List.append_nil]
    exact congrArg (wordBytes · ++ _) (flagged_zero _)
  rw [split, ← head, List.drop_left, ← fake, streamBytes, streamBytes, List.flatMap_cons]

/-- The samples recorded first are the ones of the first buffer, which is not left before it is full. -/
theorem written_one {pool : Nat} {writer : Writer} {first second : Sample} {others : List Sample}
    (laid : writer.Laid pool) (left : 1 < writer.writeIndex)
    (all : first :: second :: others =
      (List.range' 1 writer.writeIndex).flatMap writer.written) :
    ∃ rest, writer.written 1 = first :: second :: rest := by
  have filled := laid.finished 1 Nat.one_pos left
  obtain ⟨later, succ⟩ : ∃ later, writer.writeIndex = later + 1 :=
    Nat.exists_eq_add_one.mpr (by omega)
  rw [succ, List.range'_succ, List.flatMap_cons] at all
  rw [bufferGuardOffset_eq] at filled
  cases split : writer.written 1 with
  | nil =>
      rw [split, total_nil] at filled
      omega
  | cons sample rest =>
      cases behind : rest with
      | nil =>
          have small := sample.length_le
          rw [split, behind, total_cons, total_nil] at filled
          omega
      | cons other rest =>
          rw [split, behind, List.cons_append, List.cons_append, List.cons.injEq,
            List.cons.injEq] at all
          exact ⟨rest, by rw [all.1, all.2.1]⟩

def plainAt (time : Nat) : Sample where
  returnSite := 0x400000
  tsc := ⟨UInt64.ofNat (time % 2 ^ 62), stamp_lt time⟩
  data := none
  pmc := none

def firstLap : List Sample := samplesFrom1 100000 32512

def afterFirstLap : Writer := recordAll 4096 (Pool.readIndexMax samplesPool) Writer.new firstLap

/-- A sample without data has been put over one with data. -/
def intoSecondLap (writer : Writer) : State where
  writer := writer.record 4096 (Pool.readIndexMax samplesPool) (plainAt 32513)
  readIndex := 16
  curReadBuf := none
  buffer := ⟨3, 0, []⟩

theorem hasRoom_of_detached {windex : Nat} (small : windex < 2 ^ 64 - 1) :
    Pool.hasRoom samplesPool windex (Pool.readIndexMax samplesPool) = true := by
  have rindex : Pool.readIndexMax samplesPool = 2 ^ 64 - 17 := rfl
  have size : samplesPool.size = 16 := rfl
  rw [Pool.hasRoom, decide_eq_true_iff]
  omega

theorem afterFirstLap_even : afterFirstLap.Even 4096 32511 :=
  @recordAll_samplesFrom1 4096 100000 (Pool.readIndexMax samplesPool) 32511
    fun _ within => hasRoom_of_detached (by omega)

theorem intoSecondLap_leftover {writer : Writer} {rest : List Sample} (even : writer.Even 4096 32511)
    (first : writer.written 1 = sampleAt 100000 1 :: sampleAt 100000 2 :: rest) :
    (intoSecondLap writer).lap = [plainAt 32513] ∧
      (intoSecondLap writer).lapEnd 4096 = bufferAt 4096 17 + 65024 ∧
      (intoSecondLap writer).writer.thread.samplesBufferPtr = bufferAt 4096 17 + 16 ∧
      (intoSecondLap writer).writer.thread.memory.Holds (bufferAt 4096 17 + 16)
        (streamBytes (dataRead 100000 (by decide) :: sampleAt 100000 2 :: rest)) := by
  have full : writer.isFull = true := even.isFull_iff.mpr (by decide)
  have index : writer.writeIndex = 16 := even.writeIndex
  have room := @hasRoom_of_detached writer.writeIndex (by omega)
  have begins := even.laid.begins full room (plainAt 32513)
  have length : (plainAt 32513).length = 16 := rfl
  have guard := even.laid.finished 1 Nat.one_pos (by omega)
  rw [bufferGuardOffset_eq] at guard
  have oldest : writer.writeIndex - 15 = 1 := by omega
  have behind : (writer.record 4096 (Pool.readIndexMax samplesPool) (plainAt 32513)).writeIndex =
      17 := by rw [begins.writeIndex, index]
  have lap := begins.written
  have ptr := begins.ptr
  have holds := even.laid.record_leaves full room (by omega) (plainAt 32513)
    (by rw [oldest, length]; omega)
  rw [behind] at lap ptr
  rw [oldest, first, length, drop_streamBytes 100000 (by decide), ptr, length] at holds
  have same : (intoSecondLap writer).writer =
      writer.record 4096 (Pool.readIndexMax samplesPool) (plainAt 32513) := rfl
  refine ⟨?_, ?_, ?_, ?_⟩
  · rw [State.lap, same, behind, lap]
  · rw [State.lapEnd, same, behind, guardedEnd_eq, bufferGuardOffset_eq]
  · rw [same, ptr, length]
  · rw [same]
    exact holds

theorem leavesLeftovers_before {writer : Writer} {rest : List Sample} (even : writer.Even 4096 32511)
    (first : writer.written 1 = sampleAt 100000 1 :: sampleAt 100000 2 :: rest) :
    (intoSecondLap writer).LeavesLeftovers 4096 50000 := by
  obtain ⟨samples, -, ptr, holds⟩ := intoSecondLap_leftover even first
  rw [streamBytes, List.flatMap_cons, Memory.holds_append] at holds
  have late : ¬((32513 : UInt64) < 100000 ∧ (100000 : UInt64) < 50000) := by decide
  have stamp := (stands_of_holds holds.1).tsc_eq
  have none_ : (intoSecondLap writer).leftovers 4096 50000 = [] := by
    rw [State.leftovers, samples, ptr, credible, stamp]
    exact (ite_congr rfl (fun _ => if_neg late) fun _ => rfl).trans (ite_self _)
  refine Or.inl ?_
  rw [none_]
  exact fun _ left => absurd left List.not_mem_nil

theorem not_leavesLeftovers {writer : Writer} {rest : List Sample} (even : writer.Even 4096 32511)
    (first : writer.written 1 = sampleAt 100000 1 :: sampleAt 100000 2 :: rest) :
    ¬(intoSecondLap writer).LeavesLeftovers 4096 200000 := by
  obtain ⟨samples, stop, ptr, holds⟩ := intoSecondLap_leftover even first
  obtain ⟨left, stamp, further⟩ := @credible_of_holds _ ((intoSecondLap writer).lapEnd 4096) _ 32513
    200000 _ _ _ holds (by omega) (by decide) (by decide) (by decide)
  have leftovers : (intoSecondLap writer).leftovers 4096 200000 = [bufferAt 4096 17 + 16] := by
    rw [State.leftovers, samples, ptr]
    exact left
  rw [State.LeavesLeftovers, leftovers, samples]
  rintro (early | ⟨this, listed, far⟩ | zero)
  · have nothing : (intoSecondLap writer).buffer.lastSampledTsc = 0 := rfl
    have stale := early _ (List.mem_singleton_self _)
    rw [stamp, nothing] at stale
    exact absurd stale (by decide)
  · rw [List.mem_singleton.mp listed, further, maxSize] at far
    have short : (dataRead 100000 (by decide)).length = 16 := rfl
    omega
  · exact absurd zero (by decide)

/-- Sixteen buffers and one sample more, before a reader is attached that finds no full buffer. -/
def secondLap : List Event :=
  (firstLap ++ [plainAt 32513]).map Event.record ++ [.attachReader 3, .nextReadableRange]

theorem recorded_secondLap : recorded secondLap = firstLap ++ [plainAt 32513] := by
  rw [secondLap, recorded_append, recorded_record]
  exact List.append_nil _

theorem run_attach {pool : Nat} {writer : Writer} (last : writer.writeIndex = 17) :
    run (step pool) { State.new with writer := writer } [.attachReader 3, .nextReadableRange] =
      some ⟨writer, 16, none, ⟨3, 0, []⟩⟩ := by
  have attached : step pool { State.new with writer := writer } (.attachReader 3) =
      some ⟨writer, 16, none, ⟨3, 0, []⟩⟩ := by
    have opened : State.new.buffer.attachReader 3 = (⟨3, 0, []⟩, true) := rfl
    rw [step, attachReader, opened]
    dsimp only
    rw [last, if_neg (by decide)]
    rfl
  have nothing : nextReadableRange pool ⟨writer, 16, none, ⟨3, 0, []⟩⟩ =
      ⟨writer, 16, none, ⟨3, 0, []⟩⟩ := by
    rw [nextReadableRange]
    dsimp only
    rw [last]
    rfl
  have looked : step pool ⟨writer, 16, none, ⟨3, 0, []⟩⟩ .nextReadableRange =
      some ⟨writer, 16, none, ⟨3, 0, []⟩⟩ := congrArg some nothing
  rw [run, attached, Option.bind_some, run, looked]
  rfl

theorem afterFirstLap_written :
    ∃ rest, afterFirstLap.written 1 = sampleAt 100000 1 :: sampleAt 100000 2 :: rest := by
  have even := afterFirstLap_even
  have index : afterFirstLap.writeIndex = 16 := even.writeIndex
  have reached : run (step 4096) State.new (firstLap.map Event.record) =
      some { State.new with writer := afterFirstLap } := run_record 4096 firstLap State.new
  have all := (run_reachable reached).accounts.complete even.overflowCount
  have front : firstLap = _ := samplesFrom1_eq_cons 100000 32510
  rw [recorded_record, front] at all
  exact written_one even.laid (by omega) all

theorem run_secondLap :
    run (step 4096) State.new secondLap = some (intoSecondLap afterFirstLap) := by
  have even := afterFirstLap_even
  have index : afterFirstLap.writeIndex = 16 := even.writeIndex
  have full : afterFirstLap.isFull = true := even.isFull_iff.mpr (by decide)
  have room := @hasRoom_of_detached afterFirstLap.writeIndex (by omega)
  have last := (even.laid.begins full room (plainAt 32513)).writeIndex
  rw [index] at last
  rw [secondLap, run_append, run_record, Option.bind_some, recordAll_snoc]
  exact run_attach last

theorem recorded_secondLap_le : ∀ sample ∈ recorded secondLap, sample.tsc.val.toNat ≤ 32513 := by
  intro sample listed
  rw [recorded_secondLap] at listed
  rcases List.mem_append.mp listed with inLap | last
  · exact (toNat_le_of_mem_samplesFrom1 (by decide) inLap).trans (by decide)
  · rw [List.mem_singleton.mp last]
    decide

theorem recorded_secondLap_increasing :
    (recorded secondLap).Pairwise fun earlier later => earlier.tsc.val < later.tsc.val := by
  rw [recorded_secondLap, List.pairwise_append]
  refine ⟨samplesFrom1_increasing _ (by decide), List.pairwise_singleton _ _, ?_⟩
  intro earlier listed later listed'
  have before : earlier.tsc.val.toNat ≤ 32512 := toNat_le_of_mem_samplesFrom1 (by decide) listed
  have stamp : (plainAt 32513).tsc.val.toNat = 32513 := by decide
  rw [List.mem_singleton.mp listed', UInt64.lt_iff_toNat_lt, stamp]
  omega

theorem recorded_secondLap_past {now : UInt64} (later : 32513 < now.toNat) :
    ∀ sample ∈ recorded secondLap, sample.tsc.val < now := by
  intro sample listed
  rw [UInt64.lt_iff_toNat_lt]
  exact (recorded_secondLap_le sample listed).trans_lt later

/--
Whatever the thread has recorded and the collector has done before, a flush persists
nothing but samples of the current lap exactly when it leaves the leftovers alone.
-/
theorem flush_flushesWritten_iff {pool : Nat} {events : List Event} {state : State} {now : UInt64}
    (reached : run (step pool) State.new events = some state)
    (increasing : (recorded events).Pairwise fun earlier later =>
      earlier.tsc.val < later.tsc.val)
    (past : ∀ sample ∈ recorded events, sample.tsc.val < now) :
    state.FlushesWritten pool now ↔ state.LeavesLeftovers pool now :=
  (run_reachable reached).flushesWritten_iff increasing past

theorem flush_flushesWritten_secondLap :
    ∃ state, run (step 4096) State.new secondLap = some state ∧
      state.FlushesWritten 4096 50000 := by
  obtain ⟨rest, first⟩ := afterFirstLap_written
  have condition := leavesLeftovers_before afterFirstLap_even first
  refine ⟨_, run_secondLap, (flush_flushesWritten_iff run_secondLap ?_ ?_).mpr condition⟩
  · exact recorded_secondLap_increasing
  · exact recorded_secondLap_past (by decide)

theorem not_flushesWritten_secondLap :
    ∃ state, run (step 4096) State.new secondLap = some state ∧
      ((recorded secondLap).Pairwise fun earlier later => earlier.tsc.val < later.tsc.val) ∧
      (∀ sample ∈ recorded secondLap, sample.tsc.val < 200000) ∧
      ¬state.FlushesWritten 4096 200000 := by
  have past := @recorded_secondLap_past 200000 (by decide)
  obtain ⟨rest, first⟩ := afterFirstLap_written
  have condition := not_leavesLeftovers afterFirstLap_even first
  refine ⟨_, run_secondLap, recorded_secondLap_increasing, past, ?_⟩
  rwa [(run_reachable run_secondLap).flushesWritten_iff recorded_secondLap_increasing past]

end Xpedite.Collection
