import Mathlib.Data.Nat.Bitwise
import Xpedite.Lib.Runs

/-!
The wait-free buffer pool (`xpedite/common/WaitFreeBufferPool.H`) shared by one
writer thread and one reader thread.  Every load and every store of an index is
one step; between two steps a thread is described by the values it has loaded.
Index arithmetic is that of `uint64_t`.
-/

namespace Xpedite.Pool

open Xpedite.Lib

def isPoolSizeValid (poolSize : Nat) : Bool :=
  poolSize > 1 && (poolSize &&& (poolSize - 1)) == 0

/-- The template parameter `poolSize`, an `unsigned` accepted by `isPoolSizeValid`. -/
structure PoolSize where
  size : Nat
  unsigned : size < 2 ^ 32
  valid : isPoolSizeValid size = true

def readIndexMax (pool : PoolSize) : Nat := 2 ^ 64 - 1 - pool.size

def bufferAt (pool : PoolSize) (index : Nat) : Nat := index &&& (pool.size - 1)

inductive Writer where
  | idle
  | loaded (windex : Nat)
  | compared (windex rindex : Nat)
  deriving DecidableEq

inductive Reader where
  | detached
  | attachStore (windex : Nat)
  | attachCheck (rindex : Nat)
  | attached
  | nextStore (rindex : Nat)
  | nextCheck (rindex : Nat)
  | detachLoad (rindex : Nat)
  | detachStore (rindex windex : Nat)
  deriving DecidableEq

/--
The buffer the reader passes to `nextReadableBuffer`, with the index it was
returned for.  A buffer still at hand when the reader detaches turns stale: the
reader no longer holds it, but `SamplesBuffer` passes it to the next call.
-/
inductive ReadBuf where
  | null
  | held (index : Nat)
  | stale (index : Nat)
  deriving DecidableEq

structure State (Data : Type) where
  writeIndex : Nat
  readIndex : Nat
  overflowCount : Nat
  data : Nat → Data
  writer : Writer
  writeBuf : Option Nat
  reader : Reader
  curReadBuf : ReadBuf

variable {Data : Type}

def State.new (pool : PoolSize) (data : Nat → Data) : State Data where
  writeIndex := 0
  readIndex := readIndexMax pool
  overflowCount := 0
  data := data
  writer := .idle
  writeBuf := none
  reader := .detached
  curReadBuf := .null

/--
`write` stores new contents in the buffer the writer was last given, and
`writer` is the next index access of `nextWritableBuffer`.  `attach`, `next` and
`detach` start a call of the reader, `reader` is the next access of the call it
is in, and `forget` starts a detached reader afresh with no buffer at hand.
-/
inductive Action (Data : Type) where
  | write (contents : Data)
  | writer
  | attach
  | next
  | detach
  | reader
  | forget
  deriving DecidableEq

def hasRoom (pool : PoolSize) (windex rindex : Nat) : Bool :=
  windex < (rindex + pool.size) % 2 ^ 64

def writeData (pool : PoolSize) (state : State Data) (contents : Data) : Option (State Data) :=
  match state.writer, state.writeBuf with
  | .idle, some index => some { state with
      data := Function.update state.data (bufferAt pool index) contents }
  | _, _ => none

def nextWritableBuffer (pool : PoolSize) (state : State Data) : State Data :=
  match state.writer with
  | .idle => { state with writer := .loaded state.writeIndex }
  | .loaded windex => { state with writer := .compared windex state.readIndex }
  | .compared windex rindex =>
      if hasRoom pool windex rindex then
        { state with
          writeIndex := (windex + 1) % 2 ^ 64
          writeBuf := some ((windex + 1) % 2 ^ 64)
          writer := .idle }
      else
        { state with
          overflowCount := state.overflowCount + 1
          writeBuf := some windex
          writer := .idle }

def nextReadableBuffer (state : State Data) : State Data :=
  match state.curReadBuf with
  | .null => { state with reader := .nextCheck state.readIndex }
  | _ => { state with reader := .nextStore ((state.readIndex + 1) % 2 ^ 64) }

def ReadBuf.abandon : ReadBuf → ReadBuf
  | .held index => .stale index
  | other => other

def continueReader (pool : PoolSize) (state : State Data) : Option (State Data) :=
  match state.reader with
  | .attachStore windex =>
      let rindex := if windex ≠ 0 then windex - 1 else 0
      some { state with readIndex := rindex, reader := .attachCheck rindex }
  | .attachCheck rindex =>
      if state.writeIndex > (rindex + pool.size) % 2 ^ 64 then
        some { state with reader := .attachStore state.writeIndex }
      else some { state with reader := .attached }
  | .nextStore rindex => some { state with readIndex := rindex, reader := .nextCheck rindex }
  | .nextCheck rindex =>
      if state.writeIndex > (rindex + 1) % 2 ^ 64 then
        some { state with curReadBuf := .held ((rindex + 1) % 2 ^ 64), reader := .attached }
      else some { state with curReadBuf := .null, reader := .attached }
  | .detachLoad rindex => some { state with reader := .detachStore rindex state.writeIndex }
  | .detachStore _ _ => some { state with
      readIndex := readIndexMax pool
      curReadBuf := state.curReadBuf.abandon
      reader := .detached }
  | .detached => none
  | .attached => none

def step (pool : PoolSize) (state : State Data) : Action Data → Option (State Data)
  | .write contents => writeData pool state contents
  | .writer => some (nextWritableBuffer pool state)
  | .attach =>
      if state.reader = .detached then
        some { state with reader := .attachStore state.writeIndex }
      else none
  | .next => if state.reader = .attached then some (nextReadableBuffer state) else none
  | .detach =>
      if state.reader = .attached then some { state with reader := .detachLoad state.readIndex }
      else none
  | .reader => continueReader pool state
  | .forget =>
      if state.reader = .detached then some { state with curReadBuf := .null } else none

def Reader.isAttached : Reader → Bool
  | .attached | .nextStore _ | .nextCheck _ | .detachLoad _ | .detachStore _ _ => true
  | .detached | .attachStore _ | .attachCheck _ => false

/--
The index of the buffer the reader may be reading: the one last returned to it,
until a later call stores the read index that releases it.
-/
def readerHolds (state : State Data) : Option Nat :=
  match state.reader, state.curReadBuf with
  | .nextCheck _, _ => none
  | _, .held index => some index
  | _, _ => none

end Xpedite.Pool
