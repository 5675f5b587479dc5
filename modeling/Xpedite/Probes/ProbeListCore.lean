import Mathlib.Data.Finset.Card
import Mathlib.Logic.Function.Basic
import Xpedite.Lib.LinkedList

/-!
The list of all probes of a process, `xpedite/probes/ProbeList.H` and `ProbeList.C`.  A
probe goes by its address, and what the list needs of it, the fields `_next`, `_prev` and
`_id`, is kept for every address.
-/

namespace Xpedite.Probes

open Lib

variable {Address : Type} [DecidableEq Address]

structure ProbeList (Address : Type) where
  head : Option Address
  size : UInt32
  next : Address → Option Address
  prev : Address → Option Address
  id : Address → UInt32

namespace ProbeList

def new : ProbeList Address := ⟨none, 0, fun _ => none, fun _ => none, fun _ => 0⟩

variable (list : ProbeList Address) (probe : Address)

def add : ProbeList Address :=
  let prev := Function.update list.prev probe none
  { head := some probe
    size := list.size + 1
    next := Function.update list.next probe list.head
    prev :=
      match list.head with
      | none => prev
      | some head => Function.update prev head (some probe)
    id := Function.update list.id probe list.size }

/-- Null pointers on both sides make a probe valid, in the list or not. -/
def isValid : Bool :=
  (match list.next probe with
    | none => true
    | some next => list.prev next = some probe) &&
  (match list.prev probe with
    | none => true
    | some prev => list.next prev = some probe)

def unlink : ProbeList Address :=
  let prev :=
    match list.next probe with
    | none => list.prev
    | some next => Function.update list.prev next (list.prev probe)
  let next :=
    match prev probe with
    | none => list.next
    | some before => Function.update list.next before (list.next probe)
  { list with
    next := next
    prev := prev
    head := if list.head = some probe then (next probe).or (prev probe) else list.head
    size := list.size - 1 }

def remove : ProbeList Address × Bool :=
  if list.isValid probe then (list.unlink probe, true) else (list, false)

/-- The probes an iterator meets before it is equal to `end()`, if it comes that far. -/
def iterate (steps : Nat) : Option (List Address) := walk list.next steps list.head

end ProbeList

/-- With a list the probes it has accepted and not given back since. -/
structure Tracked (Address : Type) where
  list : ProbeList Address
  accepted : Finset Address

def Tracked.new : Tracked Address := ⟨ProbeList.new, ∅⟩

/-- `valid` is what `Probe::isValid` finds of the call site. -/
def xpediteAddProbe (tracked : Tracked Address) (probe : Option Address) (valid : Bool) :
    Tracked Address :=
  match probe with
  | none => tracked
  | some probe =>
      if !valid then tracked
      else if (tracked.list.next probe).isSome then tracked
      else ⟨tracked.list.add probe, insert probe tracked.accepted⟩

def xpediteRemoveProbe (tracked : Tracked Address) (probe : Address) : Tracked Address :=
  ⟨(tracked.list.remove probe).1, tracked.accepted.erase probe⟩

inductive ProbeAction (Address : Type) where
  | add (probe : Option Address) (valid : Bool)
  | remove (probe : Address)

def probeStep (tracked : Tracked Address) : ProbeAction Address → Option (Tracked Address)
  | .add probe valid => some (xpediteAddProbe tracked probe valid)
  | .remove probe => some (xpediteRemoveProbe tracked probe)

end Xpedite.Probes
