import Xpedite.Probes.ProbeCtlCore

/-!
Segments whose pages are made writable and protected again, and the patches in between.  A
patchable segment is writable, and nothing else is relied on; that is what keeps a patch from a
store to protected pages.
-/

namespace Xpedite.Probes.Switching

open Lib
open Xpedite.Framework (Command ProbeKey)
open Patching (Patch)

section Codes

variable {memory : Memory} {code other : Patching.Probe}

def mark : Command → Patching.Probe → Patching.Probe
  | .enable => Patching.Probe.markActive
  | .disable => Patching.Probe.markInActive

def overwrite : Command → Patching.Probe → Memory → Memory
  | .enable => Patching.Probe.activateCallSite
  | .disable => Patching.Probe.deactivateCallSite

def current (code : Patching.Probe) : Patch := if code.isActive then .activate else .deactivate

def Coded (memory : Memory) (code : Patching.Probe) : Prop :=
  memory.Holds code.callSite.toNat (code.code (current code))

@[simp] theorem callSite_mark (command : Command) (code : Patching.Probe) :
    (mark command code).callSite = code.callSite := by
  cases command with
  | enable => rfl
  | disable => rfl

@[simp] theorem trampoline_mark (command : Command) (code : Patching.Probe) :
    (mark command code).trampoline = code.trampoline := by
  cases command with
  | enable => rfl
  | disable => rfl

/-- The store takes eight bytes, and gives the last three of them back as they were. -/
theorem overwrite_spec (command : Command) (coded : Coded memory code) :
    Coded (overwrite command code memory) (mark command code) ∧
      ∀ place, place < code.callSite.toNat ∨ code.callSite.toNat + 5 ≤ place →
        overwrite command code memory place = memory place := by
  have five := code.length_code (current code)
  let tail := memory.read (code.callSite.toNat + 5) 3
  have three : tail.length = 3 := Memory.length_read _ _ _
  have rest : memory.Holds (code.callSite.toNat + 5) tail := by
    rw [Memory.Holds, three]
  have holds : memory.Holds code.callSite.toNat (code.code (current code) ++ tail) := by
    rw [Memory.holds_append, five]
    exact ⟨coded, rest⟩
  have written : ∃ patch, current (mark command code) = patch ∧
      (overwrite command code memory).Holds code.callSite.toNat (code.code patch ++ tail) := by
    cases command with
    | enable =>
        refine ⟨.activate, ?_, code.holds_activateCallSite five three holds⟩
        simp [current, mark, code.isActive_markActive]
    | disable =>
        refine ⟨.deactivate, ?_, code.holds_deactivateCallSite five three holds⟩
        simp [current, mark, code.isActive_markInActive]
  obtain ⟨patch, marked, written⟩ := written
  rw [Memory.holds_append, code.length_code] at written
  constructor
  · rw [Coded, marked, callSite_mark]
    cases command with
    | enable => exact written.1
    | disable => exact written.1
  · intro place outside
    by_cases within : code.callSite.toNat ≤ place ∧ place < code.callSite.toNat + 8
    · exact written.2.agree rest (by omega) (by omega)
    · have apart : place < code.callSite.toNat ∨ code.callSite.toNat + 8 ≤ place := by omega
      cases command with
      | enable => exact code.activateCallSite_outside memory apart
      | disable => exact code.deactivateCallSite_outside memory apart

theorem Coded.congr {next : Memory} (coded : Coded memory other)
    (same : ∀ place, other.callSite.toNat ≤ place → place < other.callSite.toNat + 5 →
      next place = memory place) : Coded next other := by
  refine Memory.Holds.congr coded ?_
  rw [other.length_code]
  exact same

end Codes

section Machines

variable {kernel : Kernel} {machine next : Machine} {allowed : Nat → Prop} {index : Nat}

def Segment.bounds (segment : Segment) : UInt64 × UInt64 × Protections :=
  (segment.start, segment.stop, segment.protections)

def Machine.bounds (machine : Machine) : List (UInt64 × UInt64 × Protections) :=
  machine.segments.map Segment.bounds

/-- The pages are protected as the segment says, and only allowed segments are patchable. -/
structure Guarded (allowed : Nat → Prop) (machine : Machine) : Prop where
  pages : ∀ segment ∈ machine.segments,
    segment.pages = if segment.isPatchable then .all else segment.protections
  patchable : ∀ index segment, machine.segments[index]? = some segment →
    segment.isPatchable = true → allowed index

structure Keeps (machine next : Machine) : Prop where
  memory : next.memory = machine.memory
  bounds : next.bounds = machine.bounds

theorem Keeps.refl (machine : Machine) : Keeps machine machine := ⟨rfl, rfl⟩

theorem Keeps.trans {last : Machine} (first : Keeps machine next) (second : Keeps next last) :
    Keeps machine last :=
  ⟨second.memory.trans first.memory, second.bounds.trans first.bounds⟩

theorem find_eq (machine : Machine) (address : UInt64) :
    machine.find address =
      machine.bounds.findIdx? fun bounds => bounds.1 ≤ address ∧ address < bounds.2.1 := by
  rw [Machine.bounds, List.findIdx?_map]
  rfl

theorem Keeps.find (keeps : Keeps machine next) (address : UInt64) :
    next.find address = machine.find address := by
  rw [find_eq, find_eq, keeps.bounds]

theorem exists_of_find {address : UInt64} (found : machine.find address = some index) :
    ∃ segment, machine.segments[index]? = some segment ∧ segment.start ≤ address ∧
      address < segment.stop := by
  obtain ⟨within, contains, -⟩ := List.findIdx?_eq_some_iff_getElem.mp found
  refine ⟨machine.segments[index], List.getElem?_eq_getElem within, ?_⟩
  simpa [Segment.contains] using contains

theorem map_bounds_modify {change : Segment → Segment}
    (same : ∀ segment, (change segment).bounds = segment.bounds) (segments : List Segment)
    (index : Nat) : (segments.modify index change).map Segment.bounds = segments.map Segment.bounds := by
  apply List.ext_getElem?
  intro place
  rw [List.getElem?_map, List.getElem?_map, List.getElem?_modify]
  cases segments[place]? with
  | none => rfl
  | some segment =>
      by_cases here : index = place
      · simp [here, same]
      · simp [here]

theorem getElem?_modify_cases {change : Segment → Segment} {segments : List Segment} {place : Nat}
    {segment : Segment} (located : (segments.modify index change)[place]? = some segment) :
    ∃ before, segments[place]? = some before ∧
      (place ≠ index ∧ segment = before ∨ place = index ∧ segment = change before) := by
  rw [List.getElem?_modify] at located
  obtain ⟨before, present, changed⟩ := Option.map_eq_some_iff.mp located
  refine ⟨before, present, ?_⟩
  split at changed
  · rename_i here
    exact .inr ⟨here.symm, changed.symm⟩
  · rename_i other
    exact .inl ⟨Ne.symm other, changed.symm⟩

theorem Guarded.modify {wanted : Nat → Prop} (guarded : Guarded allowed machine)
    {change : Segment → Segment}
    (pages : ∀ segment, segment.pages = (if segment.isPatchable then .all else segment.protections) →
      (change segment).pages =
        if (change segment).isPatchable then .all else (change segment).protections)
    (here : ∀ segment, machine.segments[index]? = some segment →
      (change segment).isPatchable = true → wanted index)
    (elsewhere : ∀ place, place ≠ index → allowed place → wanted place) (calls : Nat) :
    Guarded wanted
      { machine with segments := machine.segments.modify index change, calls := calls } := by
  constructor
  · intro segment listed
    obtain ⟨place, located⟩ := List.getElem?_of_mem listed
    obtain ⟨before, present, ⟨-, rfl⟩ | ⟨-, rfl⟩⟩ := getElem?_modify_cases located
    · exact guarded.pages segment (List.mem_of_getElem? present)
    · exact pages before (guarded.pages before (List.mem_of_getElem? present))
  · intro place segment located marked
    obtain ⟨before, present, ⟨other, rfl⟩ | ⟨rfl, rfl⟩⟩ := getElem?_modify_cases located
    · exact elsewhere place other (guarded.patchable place segment present marked)
    · exact here before present marked

theorem makeWritable_spec (guarded : Guarded allowed machine)
    (permitted : kernel machine.calls index .all = true → allowed index) :
    Keeps machine (machine.makeWritable kernel index).1 ∧
      Guarded allowed (machine.makeWritable kernel index).1 := by
  constructor
  · refine ⟨rfl, map_bounds_modify ?_ _ _⟩
    intro segment
    rw [Segment.makeWritable]
    split
    · rfl
    · rfl
  · refine guarded.modify ?_ ?_ (fun place _ known => known) _
    · intro segment kept
      rw [Segment.makeWritable]
      split
      · rfl
      · exact kept
    · intro segment located marked
      rw [Segment.makeWritable] at marked
      split at marked
      · rename_i granted
        exact permitted granted
      · exact guarded.patchable index segment located marked

theorem restoreProtections_spec {wanted : Nat → Prop} (guarded : Guarded allowed machine)
    (refused : ∀ segment, machine.segments[index]? = some segment →
      kernel machine.calls index segment.protections = false → segment.isPatchable = true → wanted index)
    (elsewhere : ∀ place, place ≠ index → allowed place → wanted place) :
    Keeps machine (machine.restoreProtections kernel index).1 ∧
      Guarded wanted (machine.restoreProtections kernel index).1 := by
  constructor
  · refine ⟨rfl, map_bounds_modify ?_ _ _⟩
    intro segment
    rw [Segment.restoreProtections]
    split
    · rfl
    · rfl
  · refine guarded.modify ?_ ?_ elsewhere _
    · intro segment kept
      rw [Segment.restoreProtections]
      split
      · rfl
      · exact kept
    · intro segment located marked
      rw [Segment.restoreProtections, located, Option.any_some] at marked
      split at marked
      · exact absurd marked Bool.false_ne_true
      · rename_i denied
        exact refused segment located (by simpa using denied) marked

def Restores (kernel : Kernel) (machine : Machine) : Prop :=
  ∀ index segment, machine.segments[index]? = some segment →
    ∀ calls, kernel calls index segment.protections = true

theorem Restores.congr (restores : Restores kernel machine) (same : next.bounds = machine.bounds) :
    Restores kernel next := by
  intro index segment located calls
  have bounds : machine.bounds[index]? = some segment.bounds := by
    rw [← same, Machine.bounds, List.getElem?_map, located]
    rfl
  rw [Machine.bounds, List.getElem?_map, Option.map_eq_some_iff] at bounds
  obtain ⟨other, present, together⟩ := bounds
  have protections : other.protections = segment.protections := congrArg (fun bounds => bounds.2.2) together
  rw [← protections]
  exact restores index other present calls

theorem makeAllWritable_spec {indices : List Nat} (guarded : Guarded allowed machine)
    (permitted : ∀ index ∈ indices, ∀ calls, kernel calls index .all = true → allowed index) :
    Keeps machine (makeAllWritable kernel machine indices) ∧
      Guarded allowed (makeAllWritable kernel machine indices) := by
  induction indices generalizing machine with
  | nil => exact ⟨Keeps.refl machine, guarded⟩
  | cons index indices ih =>
      rw [List.forall_mem_cons] at permitted
      obtain ⟨keeps, kept⟩ := makeWritable_spec guarded (permitted.1 machine.calls)
      obtain ⟨keepsRest, keptRest⟩ := ih kept permitted.2
      exact ⟨keeps.trans keepsRest, keptRest⟩

theorem restoreAllProtections_spec {indices : List Nat} (guarded : Guarded allowed machine) :
    Keeps machine (restoreAllProtections kernel machine indices) ∧
      Guarded allowed (restoreAllProtections kernel machine indices) := by
  induction indices generalizing machine with
  | nil => exact ⟨Keeps.refl machine, guarded⟩
  | cons index indices ih =>
      obtain ⟨keeps, kept⟩ := restoreProtections_spec guarded
        (fun segment located _ => guarded.patchable index segment located) (fun place _ known => known)
      obtain ⟨keepsRest, keptRest⟩ := ih kept
      exact ⟨keeps.trans keepsRest, keptRest⟩

theorem restoreAllProtections_closes {indices : List Nat} (restores : Restores kernel machine)
    (guarded : Guarded (· ∈ indices) machine) :
    Guarded (fun _ => False) (restoreAllProtections kernel machine indices) := by
  induction indices generalizing machine with
  | nil =>
      refine ⟨guarded.pages, ?_⟩
      intro index segment located marked
      exact absurd (guarded.patchable index segment located marked) List.not_mem_nil
  | cons index indices ih =>
      obtain ⟨keeps, kept⟩ := @restoreProtections_spec kernel machine _ index (· ∈ indices) guarded
        (by
          intro segment located denied
          rw [restores index segment located machine.calls] at denied
          cases denied)
        (fun place other known => (List.mem_cons.mp known).resolve_left other)
      exact ih (restores.congr keeps.bounds) kept

end Machines

section Patches

variable {kernel : Kernel} {machine : Machine} {allowed : Nat → Prop} {code : Patching.Probe}

def Machine.reaches (kernel : Kernel) (machine : Machine) (address : UInt64) : Bool :=
  (machine.find address).any fun index =>
    machine.segments[index]?.any (·.isPatchable) || kernel machine.calls index .all

theorem canStore_of_patchable {index : Nat} {segment : Segment} {address : UInt64}
    (guarded : Guarded allowed machine) (located : machine.segments[index]? = some segment)
    (patchable : segment.isPatchable = true) (above : segment.start ≤ address)
    (below : address.toNat + 8 ≤ segment.stop.toNat) : machine.canStore address = true := by
  have listed := List.mem_of_getElem? located
  have pages := guarded.pages segment listed
  rw [patchable, if_pos rfl] at pages
  have start : segment.start.toNat ≤ address.toNat := above
  rw [Machine.canStore, List.all_eq_true]
  intro place member
  rw [List.mem_range'_1] at member
  rw [List.any_eq_true]
  refine ⟨segment, listed, ?_⟩
  simp [pages, Protections.all]
  omega

/-- Eight bytes from a call site on are in the segment of the call site. -/
theorem within_segment {address stop : UInt64} (aligned : address.toNat % 8 = 0)
    (page : stop.toNat % 4096 = 0) (below : address < stop) : address.toNat + 8 ≤ stop.toNat := by
  have small : address.toNat < stop.toNat := below
  omega

theorem locateSegment_spec (guarded : Guarded allowed machine)
    (permitted : ∀ index, machine.find code.callSite = some index →
      kernel machine.calls index .all = true → allowed index)
    (aligned : code.callSite.toNat % 8 = 0)
    (paged : ∀ segment ∈ machine.segments, segment.stop.toNat % 4096 = 0) :
    ∃ next located, machine.locateSegment kernel code = (next, located) ∧ Keeps machine next ∧
      Guarded allowed next ∧ located.isSome = machine.reaches kernel code.callSite ∧
      (located.isSome = true → next.canStore code.callSite = true) := by
  rw [Machine.locateSegment, Machine.reaches]
  cases found : machine.find code.callSite with
  | none => exact ⟨machine, none, rfl, Keeps.refl machine, guarded, rfl, by simp⟩
  | some index =>
      obtain ⟨segment, located, above, below⟩ := exists_of_find found
      have within := within_segment aligned (paged segment (List.mem_of_getElem? located)) below
      cases patchable : segment.isPatchable with
      | true =>
          refine ⟨machine, some index, ?_, Keeps.refl machine, guarded, ?_, ?_⟩
          · simp [located, patchable]
          · simp [located, patchable]
          · intro _
            exact canStore_of_patchable guarded located patchable above within
      | false =>
          obtain ⟨keeps, kept⟩ := makeWritable_spec guarded (permitted index found)
          cases granted : kernel machine.calls index .all with
          | false =>
              refine ⟨(machine.makeWritable kernel index).1, none, ?_, keeps, kept, ?_, by simp⟩
              · simp [located, patchable, Machine.makeWritable, granted]
              · simp [located, patchable, granted]
          | true =>
              refine ⟨(machine.makeWritable kernel index).1, some index, ?_, keeps, kept, ?_, ?_⟩
              · simp [located, patchable, Machine.makeWritable, granted]
              · simp [located, granted]
              · intro _
                have changed : (machine.makeWritable kernel index).1.segments[index]? =
                    some (segment.makeWritable true) := by
                  simp [Machine.makeWritable, granted, located]
                exact canStore_of_patchable kept changed rfl above within

theorem control_spec (command : Command) (guarded : Guarded allowed machine)
    (permitted : ∀ index, machine.find code.callSite = some index →
      kernel machine.calls index .all = true → allowed index)
    (aligned : code.callSite.toNat % 8 = 0)
    (paged : ∀ segment ∈ machine.segments, segment.stop.toNat % 4096 = 0) :
    ∃ next, machine.control kernel command code =
        some (next, if machine.reaches kernel code.callSite then mark command code else code) ∧
      next.bounds = machine.bounds ∧ Guarded allowed next ∧
      next.memory = if machine.reaches kernel code.callSite then overwrite command code machine.memory
        else machine.memory := by
  obtain ⟨middle, located, run, keeps, kept, reached, storable⟩ :=
    locateSegment_spec guarded permitted aligned paged
  rw [← reached]
  have patched : ∀ mark write, machine.patch kernel mark write code =
      some (if located.isSome then ({ middle with memory := write code middle.memory }, mark code)
        else (middle, code)) := by
    intro mark write
    rw [Machine.patch, run]
    cases located with
    | none => rfl
    | some index => simp [storable rfl]
  cases located with
  | none =>
      refine ⟨middle, ?_, keeps.bounds, kept, keeps.memory⟩
      cases command with
      | enable => exact patched _ _
      | disable => exact patched _ _
  | some index =>
      refine ⟨{ middle with memory := overwrite command code middle.memory }, ?_, keeps.bounds,
        ⟨kept.pages, kept.patchable⟩, ?_⟩
      · cases command with
        | enable => exact patched _ _
        | disable => exact patched _ _
      · rw [keeps.memory]
        rfl

end Patches

end Xpedite.Probes.Switching
