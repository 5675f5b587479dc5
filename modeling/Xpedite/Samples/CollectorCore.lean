import Xpedite.Samples.SampleCore

/-!
The collector of `xpedite/framework/Collector.C` and the part of `SamplesBuffer.H` it
works with.  Every buffer it reads is an arbitrary piece of memory, and a buffer keeps
what has been handed to `persistSamples` for it since the thread was registered.
-/

namespace Xpedite.Samples

open Lib

namespace Collector

/-- Where the samples of the buffer `begin` end for its readers: `begin + bufferGuardOffset`. -/
def guardedEnd (first : Nat) : Nat := first + (4 * 1024 - 128 * 4 / 16) * 16

structure Snapshot where
  memory : Memory
  first : Nat

structure Scan where
  first : Nat
  cursor : Nat
  lastSampledTsc : UInt64
  sampleCount : Nat
  staleSampleCount : Nat

def Scan.advance (memory : Memory) (scan : Scan) : Scan :=
  if tsc memory scan.cursor ≤ scan.lastSampledTsc then
    { scan with
      cursor := next memory scan.cursor
      first := next memory scan.cursor
      staleSampleCount := scan.staleSampleCount + (scan.sampleCount + 1)
      sampleCount := 0 }
  else
    { scan with
      sampleCount := scan.sampleCount + 1
      lastSampledTsc := tsc memory scan.cursor
      cursor := next memory scan.cursor }

theorem lt_next (memory : Memory) (this : Nat) : this < next memory this := by
  rw [next, size]
  omega

theorem Scan.advance_cursor (memory : Memory) (scan : Scan) :
    (scan.advance memory).cursor = next memory scan.cursor := by
  rw [Scan.advance]
  split
  · rfl
  · rfl

def scanAll (memory : Memory) (stop : Nat) (scan : Scan) : Scan :=
  if scan.cursor < stop then scanAll memory stop (scan.advance memory) else scan
termination_by stop - scan.cursor
decreasing_by
  have further := lt_next memory scan.cursor
  rw [scan.advance_cursor]
  omega

/-- The loop of `flush`, which stops at the first sample that cannot be a consistent one. -/
def scanConsistent (memory : Memory) (stop : Nat) (minTsc maxTsc : UInt64) (scan : Scan) : Scan :=
  if scan.cursor < stop then
    if tsc memory scan.cursor ≤ minTsc ∨ maxTsc ≤ tsc memory scan.cursor then scan
    else scanConsistent memory stop (tsc memory scan.cursor) maxTsc (scan.advance memory)
  else scan
termination_by stop - scan.cursor
decreasing_by
  have further := lt_next memory scan.cursor
  rw [scan.advance_cursor]
  omega

structure SamplesBuffer where
  fd : Int
  lastSampledTsc : UInt64
  -- every sample that `persistSamples` was given for this buffer, oldest first
  persisted : List Reading

namespace SamplesBuffer

def new : SamplesBuffer where
  fd := -1
  lastSampledTsc := 0
  persisted := []

def isReaderAttached (buffer : SamplesBuffer) : Bool := 0 ≤ buffer.fd

def attachReader (buffer : SamplesBuffer) (opened : Int) : SamplesBuffer × Bool :=
  if buffer.isReaderAttached then (buffer, false)
  else if opened < 0 then ({ buffer with fd := opened }, false)
  else ({ buffer with fd := opened }, true)

def detachReader (buffer : SamplesBuffer) : SamplesBuffer × Bool :=
  if buffer.isReaderAttached then ({ buffer with fd := -1 }, true) else (buffer, false)

def startScan (buffer : SamplesBuffer) (first staleSampleCount : Nat) : Scan where
  first := first
  cursor := first
  lastSampledTsc := buffer.lastSampledTsc
  sampleCount := 0
  staleSampleCount := staleSampleCount

end SamplesBuffer

/-- `checkOverflow` throws when the last sample reaches `Sample::maxSize()` bytes too far. -/
def checkOverflow (cursor stop : Nat) : Bool := stop + 128 ≤ cursor

/-- What both readers do after their loop; the second part tells if an exception is thrown. -/
def persistScan (buffer : SamplesBuffer) (memory : Memory) (stop : Nat) (scan : Scan) :
    SamplesBuffer × Bool :=
  let sampled := { buffer with lastSampledTsc := scan.lastSampledTsc }
  if scan.first < scan.cursor then
    if checkOverflow scan.cursor stop then (sampled, true)
    else
      ({ sampled with persisted := sampled.persisted ++ walk memory scan.first scan.cursor }, false)
  else (sampled, false)

structure Counts where
  bufferCount : Nat
  sampleCount : Nat
  staleSampleCount : Nat

/-- The snapshots are those `nextReadableRange` gives until it finds no buffer. -/
def collectSamples (buffer : SamplesBuffer) (counts : Counts) :
    List Snapshot → SamplesBuffer × Option Counts
  | [] => (buffer, some counts)
  | range :: ranges =>
      let stop := guardedEnd range.first
      let scan := scanAll range.memory stop (buffer.startScan range.first counts.staleSampleCount)
      match persistScan buffer range.memory stop scan with
      | (buffer, true) => (buffer, none)
      | (buffer, false) =>
          if scan.first < scan.cursor then
            collectSamples buffer
              { bufferCount := counts.bufferCount + 1
                sampleCount := counts.sampleCount + scan.sampleCount
                staleSampleCount := scan.staleSampleCount } ranges
          else collectSamples buffer { counts with staleSampleCount := scan.staleSampleCount } ranges

def flush (buffer : SamplesBuffer) (now : UInt64) (range : Snapshot) :
    SamplesBuffer × Option (Nat × Nat) :=
  let stop := guardedEnd range.first
  let scan := scanConsistent range.memory stop 0 now (buffer.startScan range.first 0)
  match persistScan buffer range.memory stop scan with
  | (buffer, true) => (buffer, none)
  | (buffer, false) => (buffer, some (scan.sampleCount, scan.staleSampleCount))

structure Visit where
  opened : Int
  ranges : List Snapshot
  now : UInt64
  peeked : Snapshot

def pollBuffer (flush_ : Bool) (visit : Visit) (buffer : SamplesBuffer) : SamplesBuffer × Bool :=
  let buffer :=
    if buffer.isReaderAttached then buffer else (buffer.attachReader visit.opened).1
  if buffer.isReaderAttached then
    match collectSamples buffer ⟨0, 0, 0⟩ visit.ranges with
    | (buffer, none) => (buffer, true)
    | (buffer, some _) =>
        if flush_ then
          match flush buffer visit.now visit.peeked with
          | (buffer, none) => (buffer, true)
          | (buffer, some _) => (buffer, false)
        else (buffer, false)
  else (buffer, false)

/-- The list is walked from its head and left where it is when an exception is thrown. -/
def pollBuffers (flush_ : Bool) (visits : Nat → Visit) :
    List SamplesBuffer → List SamplesBuffer × Bool
  | [] => ([], false)
  | buffer :: rest =>
      match pollBuffer flush_ (visits 0) buffer with
      | (buffer, true) => (buffer :: rest, true)
      | (buffer, false) =>
          let polled := pollBuffers flush_ (fun index => visits (index + 1)) rest
          (buffer :: polled.1, polled.2)

def attachWhile (opened : Nat → Int) :
    List SamplesBuffer → List SamplesBuffer × List SamplesBuffer
  | [] => ([], [])
  | buffer :: rest =>
      match buffer.attachReader (opened 0) with
      | (buffer, false) => ([], buffer :: rest)
      | (buffer, true) =>
          let attached := attachWhile (fun index => opened (index + 1)) rest
          (buffer :: attached.1, attached.2)

def attachAll (opened : Nat → Int) (buffers : List SamplesBuffer) : List SamplesBuffer × Bool :=
  match attachWhile opened buffers with
  | (attached, []) => (attached, true)
  | (attached, failed) => (attached.map (fun buffer => buffer.detachReader.1) ++ failed, false)

def detachAll (buffers : List SamplesBuffer) : List SamplesBuffer × Bool :=
  (buffers.map fun buffer => buffer.detachReader.1,
    buffers.all fun buffer => buffer.detachReader.2)

structure State where
  isCollecting : Bool
  buffers : List SamplesBuffer

def State.initial : State := ⟨false, []⟩

def beginSamplesCollection (state : State) (opened : Nat → Int) : State :=
  let attached := attachAll opened state.buffers
  ⟨attached.2, attached.1⟩

def poll (state : State) (flush_ : Bool) (visits : Nat → Visit) : State × Bool :=
  if state.isCollecting then
    let polled := pollBuffers flush_ visits state.buffers
    ({ state with buffers := polled.1 }, polled.2)
  else (state, false)

def endSamplesCollection (state : State) (visits : Nat → Visit) : State :=
  if state.isCollecting then
    match poll state true visits with
    | (state, true) => state
    | (state, false) => ⟨false, (detachAll state.buffers).1⟩
  else state

inductive Event where
  -- a thread constructs its `SamplesBuffer`, which becomes the head of the list
  | register
  -- the handler builds a new `Collector`
  | construct
  | beginCollection (opened : Nat → Int)
  | poll (flush_ : Bool) (visits : Nat → Visit)
  | endCollection (visits : Nat → Visit)

/-- A run goes on after an exception too, which the framework thread may not. -/
def step (state : State) : Event → State
  | .register => { state with buffers := SamplesBuffer.new :: state.buffers }
  | .construct => { state with isCollecting := false }
  | .beginCollection opened => beginSamplesCollection state opened
  | .poll flush_ visits => (poll state flush_ visits).1
  | .endCollection visits => endSamplesCollection state visits

end Collector

end Xpedite.Samples
