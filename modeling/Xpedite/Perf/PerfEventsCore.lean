import Mathlib.Data.List.AList
import Xpedite.Lib.Arena
import Xpedite.Lib.Runs

/-!
Enabling and disabling perf events: `xpedite/perf/PerfEventsCtl.C`, with the event sets of
`PerfEventSet.H` and the registration of a thread by the constructor of `SamplesBuffer`.
The background thread and the threads that register take their steps in any order; a
region under the mutex is one step.  The generation counts the sessions and is not
taken modulo 2 ^ 64.
-/

namespace Xpedite.Perf

open Lib

variable {Attr : Type}

def coreEventMax : Nat := 11

abbrev PerfEventAttrSet (Attr : Type) : Type :=
  { values : List Attr // values.length ≤ coreEventMax }

def PerfEventAttrSet.empty : PerfEventAttrSet Attr := ⟨[], Nat.zero_le _⟩

structure PerfEvent (Attr : Type) where
  attr : Attr
  tid : Nat

structure PerfEventSet (Attr : Type) where
  events : List (PerfEvent Attr)
  generation : Nat
  active : Bool

namespace PerfEventSet

def new (generation : Nat) : PerfEventSet Attr := ⟨[], generation, false⟩

def size (set : PerfEventSet Attr) : Nat := set.events.length

def tid (set : PerfEventSet Attr) : Nat :=
  match set.events with
  | [] => 0
  | event :: _ => event.tid

/-- There is no result when an invariant violation is thrown. -/
def add (set : PerfEventSet Attr) (event : PerfEvent Attr) : Option (PerfEventSet Attr) :=
  if coreEventMax ≤ set.size then none
  else if 0 < set.size ∧ set.tid ≠ event.tid then none
  else some { set with events := set.events ++ [event] }

def activate (set : PerfEventSet Attr) : PerfEventSet Attr :=
  if !set.active && 0 < set.size then { set with active := true } else set

def deactivate (set : PerfEventSet Attr) : PerfEventSet Attr :=
  if set.active && 0 < set.size then { set with active := false } else set

end PerfEventSet

def addAll (tid : Nat) : List Attr → PerfEventSet Attr → Option (PerfEventSet Attr)
  | [], set => some set
  | attr :: attrs, set => (set.add ⟨attr, tid⟩).bind (addAll tid attrs)

/-- Every event can be opened, so that only an exception is left to fail. -/
def buildPerfEvents (eventAttrs : PerfEventAttrSet Attr) (generation tid : Nat) :
    Option (PerfEventSet Attr) :=
  (addAll tid eventAttrs.val (PerfEventSet.new generation)).map fun set =>
    if set.activate.active then set.activate else PerfEventSet.new 0

inductive Background (Attr : Type) where
  | idle
  | published (eventAttrs : PerfEventAttrSet Attr)
  | building (eventAttrs : PerfEventAttrSet Attr) (buffers remaining : List Nat)
      (perfEventSets : List (PerfEventSet Attr))
  | attached
  | cleared (removed remaining : List Nat)

inductive Thread (Attr : Type) where
  | unregistered
  | pushed
  | snapped (generation : Nat) (eventAttrs : PerfEventAttrSet Attr)
  | built (perfEventSet : PerfEventSet Attr)
  | registered

/-- Threads and their buffers go by the thread's `tid`, sets by where they were allocated. -/
structure State (Attr : Type) where
  buffers : List Nat
  activeEventAttrs : PerfEventAttrSet Attr
  activeEvents : AList fun _ : Nat => Nat
  generation : Nat
  isEnabled : Bool
  -- the sets handed to `_inertEventsQueue`
  inertEvents : List Nat
  sets : Arena (PerfEventSet Attr)
  perfEvents : Nat → Option Nat
  background : Background Attr
  threads : Nat → Thread Attr

def State.initial : State Attr where
  buffers := []
  activeEventAttrs := PerfEventAttrSet.empty
  activeEvents := ∅
  generation := 0
  isEnabled := false
  inertEvents := []
  sets := Arena.empty (PerfEventSet.new 0)
  perfEvents := fun _ => none
  background := .idle
  threads := fun _ => .unregistered

def publishEventAttrs (state : State Attr) (eventAttrs : PerfEventAttrSet Attr) : State Attr :=
  { state with activeEventAttrs := eventAttrs, generation := state.generation + 1 }

def snapEventAttrs (state : State Attr) : Nat × PerfEventAttrSet Attr :=
  (state.generation, state.activeEventAttrs)

def supersedes (state : State Attr) (perfEventSet : PerfEventSet Attr) : Bool :=
  match state.activeEvents.lookup perfEventSet.tid with
  | none => true
  | some active =>
      (state.sets.cell active).size = 0 ||
        decide ((state.sets.cell active).generation < perfEventSet.generation)

def store (state : State Attr) (buffer : Nat) (perfEventSet : PerfEventSet Attr) : State Attr :=
  { state with
    sets := state.sets.alloc perfEventSet
    activeEvents := state.activeEvents.insert perfEventSet.tid state.sets.size
    perfEvents := Function.update state.perfEvents buffer (some state.sets.size) }

/-- The second part is the set that has been replaced; there is no result when it throws. -/
def attachUnsafe (state : State Attr) (buffer : Nat) (perfEventSet : PerfEventSet Attr) :
    Option (State Attr × Option Nat) :=
  if perfEventSet.tid ≠ buffer then none
  else if state.activeEventAttrs.val.isEmpty then some (state, none)
  else if supersedes state perfEventSet then
    some (store state buffer perfEventSet, state.activeEvents.lookup perfEventSet.tid)
  else some (state, none)

def retire (state : State Attr) (inert : Option Nat) : State Attr :=
  { state with
    inertEvents :=
      state.inertEvents ++ inert.toList.filter fun set => decide (0 < (state.sets.cell set).size) }

def attachAll (state : State Attr) : List Nat → List (PerfEventSet Attr) → Option (State Attr)
  | [], _ => some state
  | _ :: _, [] => none
  | buffer :: buffers, perfEventSet :: perfEventSets =>
      (attachUnsafe state buffer perfEventSet).bind fun attached =>
        attachAll (retire attached.1 attached.2) buffers perfEventSets

def State.setThread (state : State Attr) (tid : Nat) (thread : Thread Attr) : State Attr :=
  { state with threads := Function.update state.threads tid thread }

theorem State.threads_setThread (state : State Attr) (tid : Nat) (thread : Thread Attr) :
    (state.setThread tid thread).threads tid = thread := by
  simp [State.setThread]

theorem State.threads_setThread_of_ne (state : State Attr) {tid other : Nat} (thread : Thread Attr)
    (different : other ≠ tid) :
    (state.setThread tid thread).threads other = state.threads other := by
  simp [State.setThread, different]

def State.setBackground (state : State Attr) (background : Background Attr) : State Attr :=
  { state with background := background }

/-- As `disable` does with its sets, and the destructor of one a thread has replaced. -/
def deactivateSet (state : State Attr) : Option Nat → State Attr
  | none => state
  | some inert => { state with sets := state.sets.modify inert PerfEventSet.deactivate }

inductive Action (Attr : Type) where
  | enable (eventAttrs : PerfEventAttrSet Attr)
  | readHead
  | build
  | attachAll
  | enabled
  | disable
  | deactivate
  | disabled
  | push (tid : Nat)
  | snap (tid : Nat)
  | buildOwn (tid : Nat)
  | attach (tid : Nat)

def stepEnable (state : State Attr) (eventAttrs : PerfEventAttrSet Attr) : State Attr :=
  if state.isEnabled || eventAttrs.val.isEmpty then state
  else (publishEventAttrs state eventAttrs).setBackground (.published eventAttrs)

def stepBuild (state : State Attr) (eventAttrs : PerfEventAttrSet Attr)
    (buffers : List Nat) (buffer : Nat) (remaining : List Nat)
    (perfEventSets : List (PerfEventSet Attr)) : Option (State Attr) :=
  (buildPerfEvents eventAttrs state.generation buffer).map fun perfEventSet =>
    if perfEventSet.size ≠ eventAttrs.val.length then state.setBackground .idle
    else
      state.setBackground
        (.building eventAttrs buffers remaining (perfEventSets ++ [perfEventSet]))

def stepDisable (state : State Attr) : State Attr :=
  if state.isEnabled then
    let removed := state.activeEvents.entries.map Sigma.snd
    { state with
      activeEventAttrs := PerfEventAttrSet.empty
      activeEvents := ∅
      background := .cleared removed removed }
  else state

def stepSnap (state : State Attr) (tid : Nat) : State Attr :=
  let snapped := snapEventAttrs state
  if snapped.2.val.isEmpty then state.setThread tid .registered
  else state.setThread tid (.snapped snapped.1 snapped.2)

def stepBuildOwn (state : State Attr) (tid generation : Nat)
    (eventAttrs : PerfEventAttrSet Attr) : Option (State Attr) :=
  (buildPerfEvents eventAttrs generation tid).map fun perfEventSet =>
    if perfEventSet.size = eventAttrs.val.length then state.setThread tid (.built perfEventSet)
    else state.setThread tid .registered

def stepAttach (state : State Attr) (tid : Nat) (perfEventSet : PerfEventSet Attr) :
    Option (State Attr) :=
  (attachUnsafe state tid perfEventSet).map fun attached =>
    (deactivateSet attached.1 attached.2).setThread tid .registered

/-- No two threads have one `tid`, so that a `tid` is registered once. -/
def step (state : State Attr) : Action Attr → Option (State Attr)
  | .enable eventAttrs =>
      match state.background with
      | .idle => some (stepEnable state eventAttrs)
      | _ => none
  | .readHead =>
      match state.background with
      | .published eventAttrs =>
          some (state.setBackground (.building eventAttrs state.buffers state.buffers []))
      | _ => none
  | .build =>
      match state.background with
      | .building eventAttrs buffers (buffer :: remaining) perfEventSets =>
          stepBuild state eventAttrs buffers buffer remaining perfEventSets
      | _ => none
  | .attachAll =>
      match state.background with
      | .building _ buffers [] perfEventSets =>
          (attachAll state buffers perfEventSets).map fun attached =>
            attached.setBackground .attached
      | _ => none
  | .enabled =>
      match state.background with
      | .attached => some { state with isEnabled := true, background := .idle }
      | _ => none
  | .disable =>
      match state.background with
      | .idle => some (stepDisable state)
      | _ => none
  | .deactivate =>
      match state.background with
      | .cleared removed (set :: remaining) =>
          some ((deactivateSet state (some set)).setBackground (.cleared removed remaining))
      | _ => none
  | .disabled =>
      match state.background with
      | .cleared removed [] =>
          some { state with
            isEnabled := false
            inertEvents := state.inertEvents ++ removed
            background := .idle }
      | _ => none
  | .push tid =>
      match state.threads tid with
      | .unregistered => some ({ state with buffers := tid :: state.buffers }.setThread tid .pushed)
      | _ => none
  | .snap tid =>
      match state.threads tid with
      | .pushed => some (stepSnap state tid)
      | _ => none
  | .buildOwn tid =>
      match state.threads tid with
      | .snapped generation eventAttrs => stepBuildOwn state tid generation eventAttrs
      | _ => none
  | .attach tid =>
      match state.threads tid with
      | .built perfEventSet => stepAttach state tid perfEventSet
      | _ => none

end Xpedite.Perf
