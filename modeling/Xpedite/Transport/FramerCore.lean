import Mathlib.Data.List.Basic

/-!
Framing of messages on a connection: `xpedite/transport/Buffer.H`, `Framer.H` and
`Framer.C`, and `encode` of `xpedite/transport/__init__.py`.  Positions stay far
below `2 ^ 31`, since `parseFrameLen` yields less than `2 ^ 28`, so they are
natural numbers.
-/

namespace Xpedite.Transport

/-- What the next `::read` of the socket can do: hand over that many bytes at most, or fail. -/
inductive Arrival where
  | ready (count : Nat)
  | failed
  deriving DecidableEq

structure Socket where
  unread : List UInt8
  arrival : Arrival

inductive ReadOutcome where
  | received (data : List UInt8)
  | again
  | failed
  deriving DecidableEq

/-- `::read(fd, ..., room)`; with no byte to hand over the call would block. -/
def Socket.read (socket : Socket) (room : Nat) : ReadOutcome × Socket :=
  match socket.arrival with
  | .failed => (.failed, socket)
  | .ready count =>
      let data := socket.unread.take (min count room)
      if data = [] then (.again, socket)
      else (.received data, { socket with unread := socket.unread.drop data.length })

structure Buffer where
  bytes : List UInt8
  capacity : Nat
  inPos : Nat
  outPos : Nat

namespace Buffer

def new (capacity : Nat) : Buffer := ⟨List.replicate capacity 0, capacity, 0, 0⟩

def usableCapacity (buffer : Buffer) : Nat := buffer.capacity - buffer.inPos

def size (buffer : Buffer) : Nat := buffer.inPos - buffer.outPos

def getReadBuffer (buffer : Buffer) (length : Nat) : List UInt8 :=
  (buffer.bytes.drop buffer.outPos).take length

def advanceReadUnsafe (buffer : Buffer) (size : Nat) : Buffer :=
  { buffer with outPos := buffer.outPos + size }

def store (buffer : Buffer) (data : List UInt8) : Buffer :=
  { buffer with
    bytes := buffer.bytes.take buffer.inPos ++ data ++
      buffer.bytes.drop (buffer.inPos + data.length)
    inPos := buffer.inPos + data.length }

def read (buffer : Buffer) (socket : Socket) : Int × Buffer × Socket :=
  if buffer.usableCapacity = 0 then (0, buffer, socket)
  else match socket.read buffer.usableCapacity with
    | (.received data, rest) => (data.length, buffer.store data, rest)
    | (.again, rest) => (0, buffer, rest)
    | (.failed, rest) => (-1, buffer, rest)

/-- The doubling loop of `ensureRoom`; `target` rounds are enough for a positive size. -/
def doubleTo (target : Nat) : Nat → Nat → Nat
  | 0, newSize => newSize
  | rounds + 1, newSize => if newSize < target then doubleTo target rounds (newSize * 2) else newSize

def realloc (buffer : Buffer) (newSize : Nat) : Buffer :=
  { buffer with
    bytes := buffer.bytes ++ List.replicate (newSize - buffer.capacity) 0
    capacity := newSize }

def memmove (buffer : Buffer) : Buffer :=
  { buffer with bytes := buffer.getReadBuffer buffer.size ++ buffer.bytes.drop buffer.size }

/-- The cursors are moved to the front of the buffer, whether or not the data was. -/
def rewind (buffer : Buffer) : Buffer :=
  { buffer with inPos := buffer.inPos - buffer.outPos, outPos := 0 }

def ensureRoom (buffer : Buffer) (size : Nat) : Buffer :=
  if buffer.inPos + size > buffer.capacity then
    let needed : Int := (buffer.size + size : Nat) - (buffer.capacity : Int)
    if needed > 0 then
      let target := buffer.capacity + needed.toNat
      (buffer.realloc (doubleTo target target buffer.capacity)).rewind
    else if buffer.size > 0 then buffer.memmove.rewind
    else buffer.rewind
  else buffer

end Buffer

inductive CursorLocation where
  | pduMeta
  | pduBody
  | disconnected
  deriving DecidableEq

inductive ReadStatus where
  | errorRead
  | partialRead
  | completeRead
  deriving DecidableEq

structure Framer where
  buffer : Buffer
  cursorLocation : CursorLocation
  frameLength : Nat

def headerLen : Nat := 8

def bufferCapacity : Nat := 8 * 1024

namespace Framer

def new : Framer := ⟨Buffer.new bufferCapacity, .pduMeta, headerLen⟩

def nibble (src : List UInt8) (index : Nat) : Nat := (src.getD index 0 &&& 0xf).toNat

def frameLen (src : List UInt8) : Nat :=
  nibble src 0 * 10000000 + nibble src 1 * 1000000 + nibble src 2 * 100000 + nibble src 3 * 10000 +
    nibble src 4 * 1000 + nibble src 5 * 100 + nibble src 6 * 10 + nibble src 7

/-- `parseFrameLen`, which also moves past the header, and the step to the body. -/
def parseFrameLen (framer : Framer) : Framer where
  buffer := framer.buffer.advanceReadUnsafe headerLen
  cursorLocation := .pduBody
  frameLength := frameLen (framer.buffer.getReadBuffer headerLen)

def read (framer : Framer) (socket : Socket) : ReadStatus × Framer × Socket :=
  let status (buffer : Buffer) : ReadStatus :=
    if buffer.size < framer.frameLength then .partialRead else .completeRead
  if framer.buffer.size < framer.frameLength then
    match (framer.buffer.ensureRoom (framer.frameLength - framer.buffer.size)).read socket with
    | (rc, buffer, rest) =>
        (if rc < 0 then .errorRead else status buffer, { framer with buffer := buffer }, rest)
  else (status framer.buffer, framer, socket)

/-- What a call of `readFrame` ends with: a frame (or none), or the exception of `handleDisconnect`. -/
inductive Result where
  | frame (data : List UInt8)
  | none
  | disconnected
  deriving DecidableEq

def takeBody (framer : Framer) : Result × Framer :=
  (.frame (framer.buffer.getReadBuffer framer.frameLength),
    { buffer := framer.buffer.advanceReadUnsafe framer.frameLength
      cursorLocation := .pduMeta
      frameLength := headerLen })

/-- The end of the `PDU_META` case: fall through to the body when it is there. -/
def fallThrough (framer : Framer) : Result × Framer :=
  if framer.buffer.size < framer.frameLength then (.none, framer) else framer.takeBody

def readFrame (framer : Framer) (socket : Socket) : Result × Framer × Socket :=
  if framer.cursorLocation = .disconnected then (.none, framer, socket)
  else match framer.read socket with
    | (.completeRead, framer, rest) =>
        match framer.cursorLocation with
        | .pduMeta => (framer.parseFrameLen.fallThrough.1, framer.parseFrameLen.fallThrough.2, rest)
        | .pduBody => (framer.takeBody.1, framer.takeBody.2, rest)
        | .disconnected => (.disconnected, framer, rest)
    | (.errorRead, framer, rest) =>
        (.disconnected, { framer with cursorLocation := .disconnected }, rest)
    | (.partialRead, framer, rest) => (.none, framer, rest)

end Framer

def header (message : List UInt8) : List UInt8 :=
  ((Nat.toDigits 10 message.length).leftpad 8 '0').map fun digit => UInt8.ofNat digit.toNat

def encode (message : List UInt8) : List UInt8 := header message ++ message

structure Connection where
  framer : Framer
  socket : Socket
  frames : List (List UInt8)

def Connection.poll (connection : Connection) (count : Nat) : Connection :=
  match connection.framer.readFrame { connection.socket with arrival := .ready count } with
  | (.frame data, framer, socket) => ⟨framer, socket, connection.frames ++ [data]⟩
  | (_, framer, socket) => ⟨framer, socket, connection.frames⟩

def Connection.start (messages : List (List UInt8)) : Connection :=
  ⟨Framer.new, ⟨messages.flatMap encode, .ready 0⟩, []⟩

def Connection.after (messages : List (List UInt8)) (schedule : Nat → Nat) : Nat → Connection
  | 0 => Connection.start messages
  | calls + 1 => (Connection.after messages schedule calls).poll (schedule calls)

end Xpedite.Transport
