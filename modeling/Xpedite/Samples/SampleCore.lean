import Xpedite.Lib.Memory

/-!
Samples in memory: `xpedite/probes/Sample.H`.  A `Sample*` is an address; what the
object holds is read from the memory it points into.
-/

namespace Xpedite.Samples

open Lib

/-- A time stamp that leaves the two flag bits clear. -/
abbrev Tsc : Type := { tsc : UInt64 // tsc.toNat < 2 ^ 62 }

/-- The counter values of a sample: eight of general purpose and three fixed ones at most. -/
abbrev Counters : Type := { values : List UInt64 // values.length ≤ 11 }

/-- What a recorder is given, by way of one of the constructors of `Sample`. -/
structure Sample where
  returnSite : UInt64
  tsc : Tsc
  data : Option (BitVec 128)
  pmc : Option Counters

def flagData : UInt64 := (1 : UInt64) <<< 62

def flagPmc : UInt64 := (1 : UInt64) <<< 63

def flags : UInt64 := flagPmc ||| flagData

def tscMask : UInt64 := ~~~flags

section Constructors

variable (memory : Memory) (this : Nat) (returnSite tsc : UInt64)

def construct : Memory := (memory.store64 this tsc).store64 (this + 8) returnSite

def constructWithData (data : BitVec 128) : Memory :=
  (construct memory this returnSite (tsc ||| flagData)).store (this + 16) 16 data.toNat

def readPmc (memory : Memory) (address : Nat) : List UInt64 → Memory
  | [] => memory
  | value :: values => readPmc (memory.store64 address value) (address + 8) values

def constructWithPmc (values : List UInt64) : Memory :=
  readPmc
    ((construct memory this returnSite (tsc ||| flagPmc)).store64 (this + 16)
      (UInt64.ofNat values.length))
    (this + 24) values

def constructWithDataAndPmc (data : BitVec 128) (values : List UInt64) : Memory :=
  readPmc
    ((constructWithData memory this returnSite (tsc ||| flagPmc) data).store64 (this + 32)
      (UInt64.ofNat values.length))
    (this + 40) values

end Constructors

section Accessors

variable (memory : Memory) (this : Nat)

def tscWord : UInt64 := memory.load64 this

def dataWord (index : Nat) : UInt64 := memory.load64 (this + 16 + 8 * index)

def returnSite : UInt64 := memory.load64 (this + 8)

def tsc : UInt64 := tscWord memory this &&& tscMask

def hasData : Bool := tscWord memory this &&& flagData != 0

def hasPmc : Bool := tscWord memory this &&& flagPmc != 0

/-- This reads past the end of a sample without counters. -/
def pmcCount : Nat := (dataWord memory this (2 * (hasData memory this).toNat) &&& 0xF).toNat

def size : Nat :=
  16 + 8 * ((hasData memory this).toNat * 2 + (hasPmc memory this).toNat * (1 + pmcCount memory this))

def data : UInt64 × UInt64 := (dataWord memory this 0, dataWord memory this 1)

def pmc : List UInt64 :=
  (List.range (pmcCount memory this)).map fun index =>
    dataWord memory this (1 + 2 * (hasData memory this).toNat + index)

def next : Nat := this + size memory this

structure Reading where
  returnSite : UInt64
  tsc : UInt64
  data : Option (UInt64 × UInt64)
  pmc : Option (List UInt64)
  deriving DecidableEq

def reading : Reading where
  returnSite := returnSite memory this
  tsc := tsc memory this
  data := if hasData memory this then some (data memory this) else none
  pmc := if hasPmc memory this then some (pmc memory this) else none

end Accessors

def lowWord (data : BitVec 128) : UInt64 := UInt64.ofNat data.toNat

def highWord (data : BitVec 128) : UInt64 := UInt64.ofNat (data.toNat / 2 ^ 64)

def Sample.reading (sample : Sample) : Reading where
  returnSite := sample.returnSite
  tsc := sample.tsc.val
  data := sample.data.map fun data => (lowWord data, highWord data)
  pmc := sample.pmc.map Subtype.val

def Sample.place (sample : Sample) (memory : Memory) (this : Nat) : Memory :=
  match sample.data, sample.pmc with
  | none, none => construct memory this sample.returnSite sample.tsc.val
  | some data, none => constructWithData memory this sample.returnSite sample.tsc.val data
  | none, some values => constructWithPmc memory this sample.returnSite sample.tsc.val values.val
  | some data, some values =>
      constructWithDataAndPmc memory this sample.returnSite sample.tsc.val data values.val

/-- A recorder: the sample is put at `samplesBufferPtr`, which then moves to `next()`. -/
def record (buffer : Memory × Nat) (sample : Sample) : Memory × Nat :=
  let memory := sample.place buffer.1 buffer.2
  (memory, next memory buffer.2)

def layOut (memory : Memory) (start : Nat) (samples : List Sample) : Memory × Nat :=
  samples.foldl record (memory, start)

def walkFrom (memory : Memory) : Nat → Nat → Nat → List Reading
  | 0, _, _ => []
  | rounds + 1, this, stop =>
      if this < stop then reading memory this :: walkFrom memory rounds (next memory this) stop
      else []

def walk (memory : Memory) (start stop : Nat) : List Reading :=
  walkFrom memory (stop - start) start stop

end Xpedite.Samples
