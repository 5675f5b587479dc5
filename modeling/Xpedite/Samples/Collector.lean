import Xpedite.Samples.CollectorCore

/-!
The samples persisted for one buffer ascend in time over a whole run.  The bound that
carries this is `lastSampledTsc`: a scan only moves it up, what a scan keeps lies above
the value it started from, and no other operation touches it.
-/

namespace Xpedite.Samples

open Lib

namespace Collector

def Path (memory : Memory) : Nat → Nat → List Nat → Prop
  | start, stop, [] => start = stop
  | start, stop, this :: rest => this = start ∧ Path memory (next memory start) stop rest

theorem Path.snoc {memory : Memory} {start stop : Nat} {visited : List Nat}
    (path : Path memory start stop visited) :
    Path memory start (next memory stop) (visited ++ [stop]) := by
  induction visited generalizing start with
  | nil =>
      obtain rfl : start = stop := path
      exact ⟨rfl, rfl⟩
  | cons this rest ih => exact ⟨path.1, ih path.2⟩

theorem Path.le {memory : Memory} {start stop : Nat} {visited : List Nat}
    (path : Path memory start stop visited) : start + visited.length ≤ stop := by
  induction visited generalizing start with
  | nil => exact Nat.le_of_eq path
  | cons this rest ih =>
      have further := lt_next memory start
      have bound := ih path.2
      rw [List.length_cons]
      omega

theorem walkFrom_of_path {memory : Memory} {rounds start stop : Nat} {visited : List Nat}
    (path : Path memory start stop visited) (enough : visited.length ≤ rounds) :
    walkFrom memory rounds start stop = visited.map (reading memory) := by
  induction visited generalizing rounds start with
  | nil =>
      obtain rfl : start = stop := path
      cases rounds with
      | zero => rfl
      | succ rounds => rw [walkFrom, if_neg (Nat.lt_irrefl start), List.map_nil]
  | cons this rest ih =>
      have further := lt_next memory start
      have bound := Path.le path.2
      cases rounds with
      | zero => exact absurd enough (Nat.not_succ_le_zero _)
      | succ rounds =>
          have tail := ih path.2 (Nat.le_of_succ_le_succ enough)
          rw [walkFrom, if_pos (by omega), tail, List.map_cons, path.1]

theorem walk_of_path {memory : Memory} {start stop : Nat} {visited : List Nat}
    (path : Path memory start stop visited) :
    walk memory start stop = visited.map (reading memory) := by
  have bound := path.le
  exact walkFrom_of_path path (by omega)

structure Ascends (floor ceiling : UInt64) (stamps : List UInt64) : Prop where
  pairwise : stamps.Pairwise (· < ·)
  above : ∀ stamp ∈ stamps, floor < stamp
  below : ∀ stamp ∈ stamps, stamp ≤ ceiling
  ordered : floor ≤ ceiling

theorem Ascends.nil {floor ceiling : UInt64} (ordered : floor ≤ ceiling) :
    Ascends floor ceiling [] where
  pairwise := List.Pairwise.nil
  above := by simp
  below := by simp
  ordered := ordered

theorem Ascends.append {floor middle ceiling : UInt64} {earlier later : List UInt64}
    (first : Ascends floor middle earlier) (second : Ascends middle ceiling later) :
    Ascends floor ceiling (earlier ++ later) where
  pairwise := by
    refine List.pairwise_append.mpr ⟨first.pairwise, second.pairwise, ?_⟩
    intro stamp old other new
    exact UInt64.lt_of_le_of_lt (first.below stamp old) (second.above other new)
  above := by
    intro stamp inside
    rcases List.mem_append.mp inside with old | new
    · exact first.above stamp old
    · exact UInt64.lt_of_le_of_lt first.ordered (second.above stamp new)
  below := by
    intro stamp inside
    rcases List.mem_append.mp inside with old | new
    · exact UInt64.le_trans (first.below stamp old) second.ordered
    · exact second.below stamp new
  ordered := UInt64.le_trans first.ordered second.ordered

theorem Ascends.singleton {floor stamp : UInt64} (above : floor < stamp) :
    Ascends floor stamp [stamp] where
  pairwise := List.pairwise_singleton _ _
  above := by simpa using above
  below := by simp
  ordered := UInt64.le_of_lt above

section Scanning

variable {memory : Memory} {floor : UInt64}

/-- What a scan that began with `floor` as `lastSampledTsc` keeps from `first` to `cursor`. -/
def Scan.Fresh (memory : Memory) (floor : UInt64) (scan : Scan) : Prop :=
  ∃ visited, Path memory scan.first scan.cursor visited ∧
    visited.length = scan.sampleCount ∧
    Ascends floor scan.lastSampledTsc (visited.map (tsc memory))

theorem Scan.Fresh.advance {scan : Scan} (fresh : scan.Fresh memory floor) :
    (scan.advance memory).Fresh memory floor := by
  obtain ⟨visited, path, counted, ascends⟩ := fresh
  rw [Scan.advance]
  split
  · -- a stale sample drops all that was kept before it
    exact ⟨[], rfl, rfl, Ascends.nil ascends.ordered⟩
  · rename_i later
    refine ⟨visited ++ [scan.cursor], path.snoc, ?_, ?_⟩
    · rw [List.length_append, List.length_singleton, counted]
    · rw [List.map_append]
      exact ascends.append (Ascends.singleton (UInt64.not_le.mp later))

theorem scanAll_fresh (stop : Nat) {scan : Scan} (fresh : scan.Fresh memory floor) :
    (scanAll memory stop scan).Fresh memory floor := by
  fun_induction scanAll memory stop scan with
  | case1 scan inside ih => exact ih fresh.advance
  | case2 scan outside => exact fresh

theorem scanConsistent_fresh (stop : Nat) (minTsc maxTsc : UInt64) {scan : Scan}
    (fresh : scan.Fresh memory floor) :
    (scanConsistent memory stop minTsc maxTsc scan).Fresh memory floor := by
  fun_induction scanConsistent memory stop minTsc maxTsc scan with
  | case1 minTsc scan inside inconsistent => exact fresh
  | case2 minTsc scan inside consistent ih => exact ih fresh.advance
  | case3 minTsc scan outside => exact fresh

theorem startScan_fresh (buffer : SamplesBuffer) (first staleSampleCount : Nat) :
    (buffer.startScan first staleSampleCount).Fresh memory buffer.lastSampledTsc :=
  ⟨[], rfl, rfl, Ascends.nil (UInt64.le_refl _)⟩

end Scanning

/-- The samples persisted so far ascend, and none of them is later than `lastSampledTsc`. -/
def SamplesBuffer.InOrder (buffer : SamplesBuffer) : Prop :=
  Ascends 0 buffer.lastSampledTsc (buffer.persisted.map Reading.tsc)

section Buffers

variable {buffer : SamplesBuffer}

theorem new_inOrder : SamplesBuffer.new.InOrder := Ascends.nil (UInt64.le_refl 0)

theorem attachReader_inOrder (opened : Int) (inOrder : buffer.InOrder) :
    (buffer.attachReader opened).1.InOrder := by
  rw [SamplesBuffer.attachReader]
  split
  · exact inOrder
  · split
    · exact inOrder
    · exact inOrder

theorem detachReader_inOrder (inOrder : buffer.InOrder) : buffer.detachReader.1.InOrder := by
  rw [SamplesBuffer.detachReader]
  split
  · exact inOrder
  · exact inOrder

theorem persistScan_inOrder {memory : Memory} {scan : Scan} (stop : Nat)
    (inOrder : buffer.InOrder) (fresh : scan.Fresh memory buffer.lastSampledTsc) :
    (persistScan buffer memory stop scan).1.InOrder := by
  obtain ⟨visited, path, counted, ascends⟩ := fresh
  have nothing : Ascends 0 scan.lastSampledTsc (buffer.persisted.map Reading.tsc ++ []) :=
    inOrder.append (Ascends.nil ascends.ordered)
  rw [List.append_nil] at nothing
  rw [persistScan]
  split
  · split
    · exact nothing
    · have stamps : (walk memory scan.first scan.cursor).map Reading.tsc =
          visited.map (tsc memory) := by
        rw [walk_of_path path, List.map_map]
        rfl
      rw [SamplesBuffer.InOrder, List.map_append, stamps]
      exact inOrder.append ascends
  · exact nothing

theorem collectSamples_inOrder (ranges : List Snapshot) (counts : Counts)
    (inOrder : buffer.InOrder) : (collectSamples buffer counts ranges).1.InOrder := by
  induction ranges generalizing buffer counts with
  | nil => exact inOrder
  | cons range ranges ih =>
      have started : (buffer.startScan range.first counts.staleSampleCount).Fresh range.memory
          buffer.lastSampledTsc := startScan_fresh buffer _ _
      have scanned := scanAll_fresh (guardedEnd range.first) started
      have kept := persistScan_inOrder (guardedEnd range.first) inOrder scanned
      rw [collectSamples]
      split
      · rename_i persisted overflow
        rw [overflow] at kept
        exact kept
      · rename_i persisted complete
        rw [complete] at kept
        split
        · exact ih _ kept
        · exact ih _ kept

theorem flush_inOrder (now : UInt64) (range : Snapshot) (inOrder : buffer.InOrder) :
    (flush buffer now range).1.InOrder := by
  have started : (buffer.startScan range.first 0).Fresh range.memory buffer.lastSampledTsc :=
    startScan_fresh buffer _ _
  have scanned := scanConsistent_fresh (guardedEnd range.first) 0 now started
  have kept := persistScan_inOrder (guardedEnd range.first) inOrder scanned
  rw [flush]
  split
  · rename_i persisted overflow
    rw [overflow] at kept
    exact kept
  · rename_i persisted complete
    rw [complete] at kept
    exact kept

theorem pollBuffer_inOrder (flush_ : Bool) (visit : Visit) (inOrder : buffer.InOrder) :
    (pollBuffer flush_ visit buffer).1.InOrder := by
  have attached : (if buffer.isReaderAttached then buffer
      else (buffer.attachReader visit.opened).1).InOrder := by
    split
    · exact inOrder
    · exact attachReader_inOrder visit.opened inOrder
  rw [pollBuffer]
  generalize (if buffer.isReaderAttached then buffer
    else (buffer.attachReader visit.opened).1) = reached at attached
  split
  · have collected := collectSamples_inOrder visit.ranges ⟨0, 0, 0⟩ attached
    split
    · rename_i persisted overflow
      rw [overflow] at collected
      exact collected
    · rename_i persisted counts complete
      rw [complete] at collected
      split
      · have flushed := flush_inOrder visit.now visit.peeked collected
        split
        · rename_i persisted overflow
          rw [overflow] at flushed
          exact flushed
        · rename_i persisted counts complete
          rw [complete] at flushed
          exact flushed
      · exact collected
  · exact attached

end Buffers

def AllInOrder (buffers : List SamplesBuffer) : Prop := ∀ buffer ∈ buffers, buffer.InOrder

theorem allInOrder_cons {buffer : SamplesBuffer} {rest : List SamplesBuffer} :
    AllInOrder (buffer :: rest) ↔ buffer.InOrder ∧ AllInOrder rest := List.forall_mem_cons

theorem allInOrder_map {buffers : List SamplesBuffer} (change : SamplesBuffer → SamplesBuffer)
    (kept : ∀ buffer, buffer.InOrder → (change buffer).InOrder) (inOrder : AllInOrder buffers) :
    AllInOrder (buffers.map change) := by
  intro changed inside
  obtain ⟨buffer, member, rfl⟩ := List.mem_map.mp inside
  exact kept buffer (inOrder buffer member)

theorem pollBuffers_inOrder (flush_ : Bool) (visits : Nat → Visit) {buffers : List SamplesBuffer}
    (inOrder : AllInOrder buffers) : AllInOrder (pollBuffers flush_ visits buffers).1 := by
  induction buffers generalizing visits with
  | nil => exact inOrder
  | cons buffer rest ih =>
      obtain ⟨first, others⟩ := allInOrder_cons.mp inOrder
      have polled := pollBuffer_inOrder flush_ (visits 0) first
      rw [pollBuffers]
      split
      · rename_i reached overflow
        rw [overflow] at polled
        exact allInOrder_cons.mpr ⟨polled, others⟩
      · rename_i reached complete
        rw [complete] at polled
        exact allInOrder_cons.mpr ⟨polled, ih _ others⟩

theorem attachWhile_inOrder (opened : Nat → Int) {buffers : List SamplesBuffer}
    (inOrder : AllInOrder buffers) :
    AllInOrder (attachWhile opened buffers).1 ∧ AllInOrder (attachWhile opened buffers).2 := by
  induction buffers generalizing opened with
  | nil => exact ⟨inOrder, inOrder⟩
  | cons buffer rest ih =>
      obtain ⟨first, others⟩ := allInOrder_cons.mp inOrder
      have attached := attachReader_inOrder (opened 0) first
      rw [attachWhile]
      split
      · rename_i reached failed
        rw [failed] at attached
        exact ⟨by simp [AllInOrder], allInOrder_cons.mpr ⟨attached, others⟩⟩
      · rename_i reached succeeded
        rw [succeeded] at attached
        have remaining := ih (fun index => opened (index + 1)) others
        exact ⟨allInOrder_cons.mpr ⟨attached, remaining.1⟩, remaining.2⟩

theorem attachAll_inOrder (opened : Nat → Int) {buffers : List SamplesBuffer}
    (inOrder : AllInOrder buffers) : AllInOrder (attachAll opened buffers).1 := by
  have parts := attachWhile_inOrder opened inOrder
  rw [attachAll]
  split
  · rename_i attached complete
    rw [complete] at parts
    exact parts.1
  · rename_i attached failed _ broken
    rw [broken] at parts
    have detached := allInOrder_map (fun buffer => buffer.detachReader.1)
      (fun buffer => detachReader_inOrder) parts.1
    intro buffer inside
    rcases List.mem_append.mp inside with before | after
    · exact detached buffer before
    · exact parts.2 buffer after

theorem poll_inOrder (flush_ : Bool) (visits : Nat → Visit) {state : State}
    (inOrder : AllInOrder state.buffers) : AllInOrder (poll state flush_ visits).1.buffers := by
  rw [poll]
  split
  · exact pollBuffers_inOrder flush_ visits inOrder
  · exact inOrder

theorem endSamplesCollection_inOrder (visits : Nat → Visit) {state : State}
    (inOrder : AllInOrder state.buffers) :
    AllInOrder (endSamplesCollection state visits).buffers := by
  have polled := poll_inOrder true visits inOrder
  rw [endSamplesCollection]
  split
  · split
    · rename_i reached overflow
      rw [overflow] at polled
      exact polled
    · rename_i reached complete
      rw [complete] at polled
      exact allInOrder_map _ (fun buffer => detachReader_inOrder) polled
  · exact inOrder

theorem step_inOrder (event : Event) {state : State} (inOrder : AllInOrder state.buffers) :
    AllInOrder (step state event).buffers := by
  cases event with
  | register => exact allInOrder_cons.mpr ⟨new_inOrder, inOrder⟩
  | construct => exact inOrder
  | beginCollection opened => exact attachAll_inOrder opened inOrder
  | poll flush_ visits => exact poll_inOrder flush_ visits inOrder
  | endCollection visits => exact endSamplesCollection_inOrder visits inOrder

theorem run_inOrder (events : List Event) {state : State} (inOrder : AllInOrder state.buffers) :
    AllInOrder (events.foldl step state).buffers := by
  induction events generalizing state with
  | nil => exact inOrder
  | cons event events ih => exact ih (step_inOrder event inOrder)

/--
Whatever the buffers hold when they are read, and however polls, flushes and sessions
follow each other, the samples persisted for a buffer strictly ascend in time, so that
none of them is persisted twice.
-/
theorem persisted_ascends (events : List Event) :
    ∀ buffer ∈ (events.foldl step State.initial).buffers,
      (buffer.persisted.map Reading.tsc).Pairwise (· < ·) ∧ buffer.persisted.Nodup := by
  have inOrder : AllInOrder (events.foldl step State.initial).buffers :=
    run_inOrder events (by simp [AllInOrder, State.initial])
  intro buffer registered
  have ascends := (inOrder buffer registered).pairwise
  refine ⟨ascends, ?_⟩
  refine (List.pairwise_map.mp ascends).imp ?_
  intro earlier later before same
  rw [same] at before
  exact UInt64.lt_irrefl _ before

def bufferOf (stamps : List Nat) : Snapshot :=
  ⟨(stamps.foldl (fun buffer stamp =>
    (construct buffer.1 buffer.2 1 (UInt64.ofNat stamp), buffer.2 + 16)) (fun _ => 0, 0)).1, 0⟩

def flushedAt (stamps : List Nat) : Event := .poll true fun _ => ⟨3, [], 100, bufferOf stamps⟩

/-- A buffer that is flushed while it is being written, and flushed again later. -/
def flushedTwice : List Event :=
  [.register, .beginCollection fun _ => 3, flushedAt [5], flushedAt [5, 7]]

theorem scanConsistent_first :
    scanConsistent (bufferOf [5]).memory (guardedEnd 0) 0 100 ⟨0, 0, 0, 0, 0⟩ =
      ⟨0, 16, 5, 1, 0⟩ := by
  have first : Scan.advance (bufferOf [5]).memory ⟨0, 0, 0, 0, 0⟩ = ⟨0, 16, 5, 1, 0⟩ := by
    rw [Scan.advance, if_neg (by decide)]
    rfl
  rw [scanConsistent, if_pos (by decide), if_neg (by decide), first]
  rw [scanConsistent, if_pos (by decide), if_pos (by decide)]

theorem scanConsistent_second :
    scanConsistent (bufferOf [5, 7]).memory (guardedEnd 0) 0 100 ⟨0, 0, 5, 0, 0⟩ =
      ⟨16, 32, 7, 1, 1⟩ := by
  have first : Scan.advance (bufferOf [5, 7]).memory ⟨0, 0, 5, 0, 0⟩ = ⟨16, 16, 5, 0, 1⟩ := by
    rw [Scan.advance, if_pos (by decide)]
    rfl
  have second : Scan.advance (bufferOf [5, 7]).memory ⟨16, 16, 5, 0, 1⟩ = ⟨16, 32, 7, 1, 1⟩ := by
    rw [Scan.advance, if_neg (by decide)]
    rfl
  rw [scanConsistent, if_pos (by decide), if_neg (by decide), first]
  rw [scanConsistent, if_pos (by decide), if_neg (by decide), second]
  rw [scanConsistent, if_pos (by decide), if_pos (by decide)]

theorem step_flushedAt {buffer persisted : SamplesBuffer} {stamps : List Nat} {scan : Scan}
    (attached : buffer.isReaderAttached = true)
    (scanned : scanConsistent (bufferOf stamps).memory (guardedEnd 0) 0 100
      (buffer.startScan 0 0) = scan)
    (persists : persistScan buffer (bufferOf stamps).memory (guardedEnd 0) scan =
      (persisted, false)) :
    step ⟨true, [buffer]⟩ (flushedAt stamps) = ⟨true, [persisted]⟩ := by
  have flushed : flush buffer 100 (bufferOf stamps) =
      (persisted, some (scan.sampleCount, scan.staleSampleCount)) := by
    have first : (bufferOf stamps).first = 0 := rfl
    simp only [flush, first, scanned, persists]
  simp [step, flushedAt, poll, pollBuffers, pollBuffer, attached, collectSamples, flushed]

theorem buffers_flushedTwice :
    (flushedTwice.foldl step State.initial).buffers =
      [⟨3, 7, [⟨1, 5, none, none⟩, ⟨1, 7, none, none⟩]⟩] := by
  have begun : [Event.register, .beginCollection fun _ => 3].foldl step State.initial =
      ⟨true, [⟨3, 0, []⟩]⟩ := rfl
  have first : step ⟨true, [⟨3, 0, []⟩]⟩ (flushedAt [5]) =
      ⟨true, [⟨3, 5, [⟨1, 5, none, none⟩]⟩]⟩ := step_flushedAt rfl scanConsistent_first rfl
  have second : step ⟨true, [⟨3, 5, [⟨1, 5, none, none⟩]⟩]⟩ (flushedAt [5, 7]) =
      ⟨true, [⟨3, 7, [⟨1, 5, none, none⟩, ⟨1, 7, none, none⟩]⟩]⟩ :=
    step_flushedAt rfl scanConsistent_second rfl
  change (step (step ([Event.register, .beginCollection fun _ => 3].foldl step State.initial)
    (flushedAt [5])) (flushedAt [5, 7])).buffers = _
  rw [begun, first, second]

theorem persisted_ascends_flushedTwice :
    ∃ buffer ∈ (flushedTwice.foldl step State.initial).buffers,
      buffer.persisted.map Reading.tsc = [5, 7] ∧
      (buffer.persisted.map Reading.tsc).Pairwise (· < ·) ∧ buffer.persisted.Nodup := by
  have registered : ⟨3, 7, [⟨1, 5, none, none⟩, ⟨1, 7, none, none⟩]⟩ ∈
      (flushedTwice.foldl step State.initial).buffers := by
    rw [buffers_flushedTwice]
    exact List.mem_singleton_self _
  exact ⟨_, registered, rfl, persisted_ascends flushedTwice _ registered⟩

end Collector

end Xpedite.Samples
