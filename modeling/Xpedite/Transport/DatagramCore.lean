import Xpedite.Lib.PyText
import Xpedite.Lib.Utf8

/-!
The client's side of a connection: `encode`, `readAtleast` and `DatagramClient` of
`xpedite/transport/__init__.py` and `Client` of `client.py`, run by Python 3, with
the target's `RemoteSession::encode`.  A socket that has handed over every byte
returns an empty block, as one closed by its peer does.
-/

namespace Xpedite.Transport.Datagram

open Lib

/-- The bytes on their way and the sizes, less one, of the blocks the socket hands over next. -/
structure Stream where
  unread : List UInt8
  chunks : List Nat

def Stream.limit (stream : Stream) (size : Nat) : Nat :=
  match stream.chunks with
  | [] => size
  | chunk :: _ => min (chunk + 1) size

def Stream.receive (stream : Stream) (size : Nat) : List UInt8 × Stream :=
  (stream.unread.take (stream.limit size),
    ⟨stream.unread.drop (stream.limit size), stream.chunks.tail⟩)

inductive Failure where
  | closed
  | unicode
  | header (length : Nat)
  | value
  deriving DecidableEq

def ensureStr (block : List UInt8) : Except Failure (List Char) :=
  match decodeUtf8 block with
  | some text => .ok text
  | none => .error .unicode

/-- The loop of `readAtleast`; each round adds a character, so `length` rounds are enough. -/
def readLoop (length : Nat) : Nat → List Char → Stream → Except Failure (List Char × Stream)
  | 0, data, stream => .ok (data, stream)
  | rounds + 1, data, stream =>
      if data.length < length then
        let bufLen := length - data.length
        let (block, stream) := stream.receive bufLen
        match ensureStr block with
        | .error failure => .error failure
        | .ok block =>
            if block = [] then .error .closed else readLoop length rounds (data ++ block) stream
      else .ok (data, stream)

def readAtleast (stream : Stream) (length : Nat) : Except Failure (List Char × Stream) :=
  readLoop length length [] stream

def hdrLen : Nat := 8

def readFrame (stream : Stream) : Except Failure (List Char × Stream) :=
  match readAtleast stream hdrLen with
  | .error failure => .error failure
  | .ok (data, stream) =>
      if data.length ≠ hdrLen then .error (.header data.length)
      else
        match int 10 data with
        | none => .error .value
        | some frameLen =>
            if frameLen > 0 then readAtleast stream frameLen.toNat else .ok ([], stream)

/-- `'{0:0>8}'` in Python, `setfill('0') << setw(8)` in C++. -/
def lengthDigits (length : Nat) : List Char := (Nat.toDigits 10 length).leftpad 8 '0'

def encode (msg : List Char) : List Char := lengthDigits msg.length ++ msg

def send (accepted : Nat) (msg : List Char) : List UInt8 := (utf8 (encode msg)).take accepted

inductive ReturnCode where
  | success
  | failure
  deriving DecidableEq

def ReturnCode.value : ReturnCode → Nat
  | .success => 0
  | .failure => 1

def responseText (returnCode : ReturnCode) (payload : List Char) : List Char :=
  "rc=".toList ++ Nat.toDigits 10 returnCode.value ++ "|".toList ++ payload

/-- `RemoteSession::encode`, which counts the bytes of the payload. -/
def encodeResponse (returnCode : ReturnCode) (payload : List Char) : List UInt8 :=
  utf8 (lengthDigits ((utf8 payload).length + 5)) ++ utf8 (responseText returnCode payload)

end Xpedite.Transport.Datagram
