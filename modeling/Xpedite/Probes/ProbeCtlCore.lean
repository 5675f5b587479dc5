import Xpedite.Framework.HandlerCore
import Xpedite.Lib.Runs
import Xpedite.Probes.CallSite

/-!
`probeCtl` over the address space of the target: `ProbeCtl.C`, `Probe::activate`,
`Probe::deactivate` and `AddressSpace`.  The process ends with a signal where it stores to
pages that are not writable.
-/

namespace Xpedite.Probes.Switching

open Lib
open Xpedite.Framework (Command ProbeKey)

structure Protections where
  canRead : Bool
  canWrite : Bool
  canExec : Bool
  deriving DecidableEq

def Protections.all : Protections := ⟨true, true, true⟩

/-- What a call of `mprotect` comes to, by the calls before it, the segment and the protections. -/
abbrev Kernel : Type := Nat → Nat → Protections → Bool

structure Segment where
  start : UInt64
  stop : UInt64
  protections : Protections
  isPatchable : Bool
  -- what the pages are protected with at present
  pages : Protections

namespace Segment

def contains (segment : Segment) (address : UInt64) : Bool :=
  segment.start ≤ address ∧ address < segment.stop

def makeWritable (segment : Segment) (granted : Bool) : Segment :=
  if granted then { segment with pages := .all, isPatchable := true } else segment

def restoreProtections (segment : Segment) (granted : Bool) : Segment :=
  if granted then { segment with pages := segment.protections, isPatchable := false } else segment

end Segment

structure Machine where
  memory : Memory
  segments : List Segment
  -- the calls of `mprotect` so far
  calls : Nat

namespace Machine

variable (kernel : Kernel) (machine : Machine)

/-- A pointer to a segment is its place in the vector. -/
def find (address : UInt64) : Option Nat := machine.segments.findIdx? (·.contains address)

def makeWritable (index : Nat) : Machine × Bool :=
  let granted := kernel machine.calls index .all
  ({ machine with
      segments := machine.segments.modify index (·.makeWritable granted)
      calls := machine.calls + 1 }, granted)

def restoreProtections (index : Nat) : Machine × Bool :=
  let granted := machine.segments[index]?.any fun segment =>
    kernel machine.calls index segment.protections
  ({ machine with
      segments := machine.segments.modify index (·.restoreProtections granted)
      calls := machine.calls + 1 }, granted)

def canStore (address : UInt64) : Bool :=
  (List.range' address.toNat 8).all fun place =>
    machine.segments.any fun segment =>
      segment.start.toNat ≤ place ∧ place < segment.stop.toNat ∧
        segment.pages.canRead ∧ segment.pages.canWrite

def locateSegment (probe : Patching.Probe) : Machine × Option Nat :=
  match machine.find probe.callSite with
  | none => (machine, none)
  | some index =>
      if machine.segments[index]?.any (·.isPatchable) then (machine, some index)
      else
        match machine.makeWritable kernel index with
        | (machine, true) => (machine, some index)
        | (machine, false) => (machine, none)

/-- `Probe::activate` and `Probe::deactivate`, which end by a signal or with the attributes. -/
def patch (mark : Patching.Probe → Patching.Probe) (write : Patching.Probe → Memory → Memory)
    (probe : Patching.Probe) : Option (Machine × Patching.Probe) :=
  match machine.locateSegment kernel probe with
  | (machine, none) => some (machine, probe)
  | (machine, some _) =>
      if machine.canStore probe.callSite then
        some ({ machine with memory := write probe machine.memory }, mark probe)
      else none

def activate : Patching.Probe → Option (Machine × Patching.Probe) :=
  machine.patch kernel Patching.Probe.markActive Patching.Probe.activateCallSite

def deactivate : Patching.Probe → Option (Machine × Patching.Probe) :=
  machine.patch kernel Patching.Probe.markInActive Patching.Probe.deactivateCallSite

def control (command : Command) : Patching.Probe → Option (Machine × Patching.Probe) :=
  match command with
  | .enable => machine.activate kernel
  | .disable => machine.deactivate kernel

end Machine

/-- A probe of `probeList()`; `code` has its call site, trampoline and attributes. -/
structure LiveProbe where
  name : List Char
  file : List Char
  line : UInt32
  code : Patching.Probe

namespace LiveProbe

def shown (patchable : Bool) (probe : LiveProbe) : Framework.Probe where
  name := probe.name
  file := probe.file
  line := probe.line
  patchable := patchable
  active := probe.code.isActive

def «match» (probe : LiveProbe) (key : ProbeKey) : Bool := (probe.shown false).match key

end LiveProbe

structure Target where
  machine : Machine
  probes : List LiveProbe

section ProbeCtl

variable (kernel : Kernel)

/-- The segments of the set, which is in the order of their addresses. -/
def matchedSegments (target : Target) (key : ProbeKey) : List Nat :=
  (List.range target.machine.segments.length).filter fun index =>
    target.probes.any fun probe =>
      probe.match key && target.machine.find probe.code.callSite = some index

def makeAllWritable (machine : Machine) (segments : List Nat) : Machine :=
  segments.foldl (fun machine index => (machine.makeWritable kernel index).1) machine

def restoreAllProtections (machine : Machine) (segments : List Nat) : Machine :=
  segments.foldl (fun machine index => (machine.restoreProtections kernel index).1) machine

/-- What the results of `activate` and `deactivate` say is not looked at. -/
def controlProbe (command : Command) (key : ProbeKey) (machine : Machine) (probe : LiveProbe) :
    Option (Machine × LiveProbe) :=
  if probe.match key then do
    let (machine, code) ← machine.control kernel command probe.code
    return (machine, { probe with code := code })
  else some (machine, probe)

def controlProbes (command : Command) (key : ProbeKey) :
    Machine → List LiveProbe → Option (Machine × List LiveProbe)
  | machine, [] => some (machine, [])
  | machine, probe :: probes => do
      let (machine, probe) ← controlProbe kernel command key machine probe
      let (machine, probes) ← controlProbes command key machine probes
      return (machine, probe :: probes)

def probeCtl (target : Target) (request : Command × ProbeKey) : Option Target := do
  let segments := matchedSegments target request.2
  let machine := makeAllWritable kernel target.machine segments
  let (machine, probes) ← controlProbes kernel request.1 request.2 machine target.probes
  return ⟨restoreAllProtections kernel machine segments, probes⟩

end ProbeCtl

end Xpedite.Probes.Switching
