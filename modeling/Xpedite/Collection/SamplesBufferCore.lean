import Xpedite.Framework.Recorders
import Xpedite.Pool.PoolInvariant
import Xpedite.Samples.Scan

/-!
One thread, its `SamplesBuffer` and the collector: the recorders of `Recorders.C` fill the
buffers of the pool, `collectSamples` and `flush` read them.  A call of either side is one
step; how the loads and stores within the calls of the pool interleave is told in `Pool`.
-/

namespace Xpedite.Collection

open Lib Samples Framework

def samplesPool : Pool.PoolSize := ⟨16, by decide, by decide⟩

def bufferAt (pool index : Nat) : Nat := pool + Pool.bufferAt samplesPool index * (4 * 1024) * 16

structure Writer where
  thread : ThreadBuffer
  writeIndex : Nat
  overflowCount : Nat
  -- not in the source: what has been put in a buffer since the thread was last given it
  written : Nat → List Sample

structure State where
  writer : Writer
  readIndex : Nat
  curReadBuf : Option Nat
  buffer : Collector.SamplesBuffer

def Writer.new : Writer where
  thread := ⟨fun _ => 0, 0, 0⟩
  writeIndex := 0
  overflowCount := 0
  written := fun _ => []

def State.new : State where
  writer := .new
  readIndex := Pool.readIndexMax samplesPool
  curReadBuf := none
  buffer := .new

namespace Writer

def nextWritableBuffer (rindex : Nat) (writer : Writer) : Writer :=
  if Pool.hasRoom samplesPool writer.writeIndex rindex then
    { writer with writeIndex := (writer.writeIndex + 1) % 2 ^ 64 }
  else { writer with overflowCount := writer.overflowCount + 1 }

def nextWritableRange (pool : Nat) (writer : Writer) : Nat × Nat :=
  let first := bufferAt pool writer.writeIndex
  (first, Collector.guardedEnd first)

def expand (pool rindex : Nat) (writer : Writer) : Writer :=
  let writer := writer.nextWritableBuffer rindex
  let range := writer.nextWritableRange pool
  { writer with
    thread := { writer.thread with samplesBufferPtr := range.1, samplesBufferEnd := range.2 }
    written := Function.update writer.written writer.writeIndex [] }

def append (writer : Writer) (sample : Sample) : Writer :=
  let thread := writer.thread
  if thread.samplesBufferPtr < thread.samplesBufferEnd then
    let recorded := Samples.record (thread.memory, thread.samplesBufferPtr) sample
    { writer with
      thread := { thread with memory := recorded.1, samplesBufferPtr := recorded.2 }
      written := Function.update writer.written writer.writeIndex
        (writer.written writer.writeIndex ++ [sample]) }
  else writer

def isFull (writer : Writer) : Bool :=
  writer.thread.samplesBufferEnd ≤ writer.thread.samplesBufferPtr

def expandIfFull (pool rindex : Nat) (writer : Writer) : Writer :=
  if writer.isFull then writer.expand pool rindex else writer

/-- What any of the expanding recorders does. -/
def record (pool rindex : Nat) (writer : Writer) (sample : Sample) : Writer :=
  (writer.expandIfFull pool rindex).append sample

end Writer

/-- There is no result where the loop of `attachReader` would not end. -/
def attachReader (state : State) (opened : Int) : Option State :=
  match state.buffer.attachReader opened with
  | (buffer, false) => some { state with buffer := buffer }
  | (buffer, true) =>
      let windex := state.writer.writeIndex
      let rindex := if windex ≠ 0 then windex - 1 else 0
      if windex > (rindex + samplesPool.size) % 2 ^ 64 then none
      else some { state with readIndex := rindex, buffer := buffer }

def detachReader (state : State) : State :=
  match state.buffer.detachReader with
  | (buffer, false) => { state with buffer := buffer }
  | (buffer, true) =>
      { state with readIndex := Pool.readIndexMax samplesPool, buffer := buffer }

def nextReadableRange (pool : Nat) (state : State) : State :=
  let rindex := if state.curReadBuf.isSome then (state.readIndex + 1) % 2 ^ 64 else state.readIndex
  { state with
    readIndex := rindex
    curReadBuf :=
      if state.writer.writeIndex > (rindex + 1) % 2 ^ 64 then
        some (bufferAt pool ((rindex + 1) % 2 ^ 64))
      else none }

def collectRange (state : State) (counts : Collector.Counts) (first : Nat) :
    Collector.SamplesBuffer × Option Collector.Counts :=
  Collector.collectSamples state.buffer counts [⟨state.writer.thread.memory, first⟩]

def peekWithDataRace (pool : Nat) (state : State) : Collector.Snapshot :=
  ⟨state.writer.thread.memory, bufferAt pool state.writer.writeIndex⟩

def flush (pool : Nat) (state : State) (now : UInt64) :
    Collector.SamplesBuffer × Option (Nat × Nat) :=
  Collector.flush state.buffer now (peekWithDataRace pool state)

inductive Event where
  | record (sample : Sample)
  | attachReader (opened : Int)
  | detachReader
  | nextReadableRange
  | collectRange (counts : Collector.Counts)
  | flush (now : UInt64)

/-- The collector detaches between its polls, where it holds no range. -/
def step (pool : Nat) (state : State) : Event → Option State
  | .record sample =>
      some { state with writer := state.writer.record pool state.readIndex sample }
  | .attachReader opened => attachReader state opened
  | .detachReader => if state.curReadBuf = none then some (detachReader state) else none
  | .nextReadableRange =>
      if state.buffer.isReaderAttached then some (nextReadableRange pool state) else none
  | .collectRange counts =>
      state.curReadBuf.map fun first => { state with buffer := (collectRange state counts first).1 }
  | .flush now =>
      if state.buffer.isReaderAttached then
        some { state with buffer := (flush pool state now).1 }
      else none

def Event.sample? : Event → Option Sample
  | .record sample => some sample
  | _ => none

def recorded (events : List Event) : List Sample := events.filterMap Event.sample?

end Xpedite.Collection
