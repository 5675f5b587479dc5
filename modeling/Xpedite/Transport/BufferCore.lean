import Xpedite.Lib.Runs
import Xpedite.Transport.FramerCore

/-!
The receive buffer with its 32-bit cursors (`xpedite/transport/Buffer.H`).  Allocations succeed,
and `realloc` leaves zeros behind the bytes it keeps.
-/

namespace Xpedite.Transport

structure Buffer32 where
  bytes : List UInt8
  capacity : UInt32
  inPos : UInt32
  outPos : UInt32

namespace Buffer32

def new (capacity : UInt32) : Buffer32 := ⟨List.replicate capacity.toNat 0, capacity, 0, 0⟩

def reset (buffer : Buffer32) : Buffer32 := new buffer.capacity

def usableCapacity (buffer : Buffer32) : UInt32 := buffer.capacity - buffer.inPos

def size (buffer : Buffer32) : UInt32 := buffer.inPos - buffer.outPos

def unread (buffer : Buffer32) : List UInt8 :=
  (buffer.bytes.drop buffer.outPos.toNat).take buffer.size.toNat

/-- Nothing stands for the exception. -/
def advanceRead (buffer : Buffer32) (size : UInt32) : Option Buffer32 :=
  if buffer.inPos < buffer.outPos + size then none
  else some { buffer with outPos := buffer.outPos + size }

/-- Linux hands over no more bytes with one `::read`. -/
def transferLimit : Nat := 0x7ffff000

def store (buffer : Buffer32) (data : List UInt8) : Buffer32 :=
  { buffer with
    bytes := buffer.bytes.take buffer.inPos.toNat ++ data ++
      buffer.bytes.drop (buffer.inPos.toNat + data.length)
    inPos := buffer.inPos + UInt32.ofNat data.length }

def read (buffer : Buffer32) (socket : Socket) : Int × Buffer32 × Socket :=
  if buffer.usableCapacity = 0 then (0, buffer, socket)
  else match socket.read (min buffer.usableCapacity.toNat transferLimit) with
    | (.received data, rest) => (data.length, buffer.store data, rest)
    | (.again, rest) => (0, buffer, rest)
    | (.failed, rest) => (-1, buffer, rest)

/-- The doubling loop.  After 32 rounds the size is 0 and stays so, and the loop goes on for ever. -/
def doubleTo (target : UInt32) : Nat → UInt32 → Option UInt32
  | 0, _ => none
  | rounds + 1, newSize =>
      if newSize < target then doubleTo target rounds (newSize * 2) else some newSize

def realloc (buffer : Buffer32) (newSize : UInt32) : Buffer32 :=
  { buffer with
    bytes := buffer.bytes ++ List.replicate (newSize.toNat - buffer.capacity.toNat) 0
    capacity := newSize }

def memmove (buffer : Buffer32) : Buffer32 :=
  { buffer with bytes := buffer.unread ++ buffer.bytes.drop buffer.size.toNat }

def rewind (buffer : Buffer32) : Buffer32 :=
  { buffer with inPos := buffer.inPos - buffer.outPos, outPos := 0 }

/-- There is no result if the doubling loop does not end. -/
def ensureRoom (buffer : Buffer32) (size : UInt32) : Option Buffer32 :=
  if buffer.capacity < buffer.inPos + size then
    let needed : Int32 := (buffer.size + size - buffer.capacity).toInt32
    if 0 < needed then
      (doubleTo (buffer.capacity + needed.toUInt32) 33 buffer.capacity).map fun newSize =>
        (buffer.realloc newSize).rewind
    else if 0 < buffer.size then some buffer.memmove.rewind
    else some buffer.rewind
  else some buffer

inductive Operation where
  | read (socket : Socket)
  | advanceRead (size : UInt32)
  | ensureRoom (size : UInt32)
  | reset

def step (buffer : Buffer32) : Operation → Option Buffer32
  | .read socket => some (buffer.read socket).2.1
  | .advanceRead size => buffer.advanceRead size
  | .ensureRoom size => buffer.ensureRoom size
  | .reset => some buffer.reset

def Reachable (buffer : Buffer32) : Prop :=
  ∃ capacity operations, Lib.run step (new capacity) operations = some buffer

end Buffer32

end Xpedite.Transport
