import Xpedite.Framework.Probes
import Xpedite.Probes.Segments

/-!
Runs of commands over the address space.  One command is followed through the list of probes;
the call sites are at multiples of eight, so that what is stored to one leaves the others alone.
-/

namespace Xpedite.Probes.Switching

open Lib
open Xpedite.Framework (Command ProbeKey)
open Patching (jumpTarget)

section Commands

variable {kernel : Kernel} {machine : Machine} {allowed : Nat → Prop} {key : ProbeKey}
  {probe : LiveProbe} {probes : List LiveProbe}

/-- Where call sites stand and what segments there are: `isValid` and the pages see to it. -/
structure Placed (machine : Machine) (probes : List LiveProbe) : Prop where
  aligned : ∀ probe ∈ probes, probe.code.callSite.toNat % 8 = 0
  apart : (probes.map fun probe => probe.code.callSite).Nodup
  paged : ∀ segment ∈ machine.segments, segment.stop.toNat % 4096 = 0

def Outside (probes : List LiveProbe) (place : Nat) : Prop :=
  ∀ probe ∈ probes, place < probe.code.callSite.toNat ∨ probe.code.callSite.toNat + 5 ≤ place

def controlled (command : Command) (key : ProbeKey) (reached : Bool) (probe : LiveProbe) : LiveProbe :=
  if probe.match key && reached then { probe with code := mark command probe.code } else probe

def Controlled (command : Command) (key : ProbeKey) (answer : UInt64 → Bool → Prop)
    (before after : LiveProbe) : Prop :=
  ∃ reached, answer before.code.callSite reached ∧ after = controlled command key reached before

theorem paged_of_bounds {next : Machine} (bounds : next.bounds = machine.bounds)
    (paged : ∀ segment ∈ machine.segments, segment.stop.toNat % 4096 = 0) :
    ∀ segment ∈ next.segments, segment.stop.toNat % 4096 = 0 := by
  intro segment listed
  have listed : segment.bounds ∈ machine.bounds := by
    rw [← bounds]
    exact List.mem_map_of_mem listed
  obtain ⟨other, listed, same⟩ := List.mem_map.mp listed
  have stop : segment.stop = other.stop := (congrArg (fun bounds => bounds.2.1) same).symm
  rw [stop]
  exact paged other listed

theorem controlProbe_spec (command : Command) (guarded : Guarded allowed machine)
    (permitted : probe.match key = true → ∀ index, machine.find probe.code.callSite = some index →
      ∀ calls, kernel calls index .all = true → allowed index)
    (aligned : probe.code.callSite.toNat % 8 = 0)
    (paged : ∀ segment ∈ machine.segments, segment.stop.toNat % 4096 = 0)
    (coded : Coded machine.memory probe.code) :
    let after := controlled command key (machine.reaches kernel probe.code.callSite) probe
    ∃ next, controlProbe kernel command key machine probe = some (next, after) ∧
      next.bounds = machine.bounds ∧ Guarded allowed next ∧ Coded next.memory after.code ∧
      ∀ place, Outside [probe] place → next.memory place = machine.memory place := by
  intro after
  cases matched : probe.match key with
  | false =>
      have same : after = probe := by simp [after, controlled, matched]
      rw [controlProbe, matched, same]
      exact ⟨machine, rfl, rfl, guarded, coded, fun _ _ => rfl⟩
  | true =>
      obtain ⟨next, run, bounds, kept, memory⟩ :=
        control_spec command guarded (fun index found => permitted matched index found machine.calls)
          aligned paged
      obtain ⟨written, beside⟩ := overwrite_spec command coded
      have switched : after = { probe with
          code := if machine.reaches kernel probe.code.callSite then mark command probe.code
            else probe.code } := by
        simp only [after, controlled, matched, Bool.true_and]
        split
        · rfl
        · rfl
      refine ⟨next, ?_, bounds, kept, ?_, ?_⟩
      · simp [controlProbe, matched, run, switched]
      · rw [switched, memory]
        split
        · exact written
        · exact coded
      · intro place outside
        rw [memory]
        split
        · exact beside place (outside probe List.mem_cons_self)
        · rfl

@[simp] theorem callSite_controlled (command : Command) (key : ProbeKey) (reached : Bool)
    (probe : LiveProbe) : (controlled command key reached probe).code.callSite = probe.code.callSite := by
  rw [controlled]
  split
  · exact callSite_mark command probe.code
  · rfl

theorem controlProbes_spec (command : Command) {answer : UInt64 → Bool → Prop}
    (answers : ∀ next : Machine, next.bounds = machine.bounds → Guarded allowed next →
      ∀ address, answer address (next.reaches kernel address))
    (guarded : Guarded allowed machine)
    (permitted : ∀ probe ∈ probes, probe.match key = true →
      ∀ index, machine.find probe.code.callSite = some index →
        ∀ calls, kernel calls index .all = true → allowed index)
    (placed : Placed machine probes) (coded : ∀ probe ∈ probes, Coded machine.memory probe.code) :
    ∃ next after, controlProbes kernel command key machine probes = some (next, after) ∧
      next.bounds = machine.bounds ∧ Guarded allowed next ∧
      List.Forall₂ (Controlled command key answer) probes after ∧
      (∀ probe ∈ after, Coded next.memory probe.code) ∧
      ∀ place, Outside probes place → next.memory place = machine.memory place := by
  induction probes generalizing machine with
  | nil => exact ⟨machine, [], rfl, rfl, guarded, .nil, by simp, fun _ _ => rfl⟩
  | cons probe probes ih =>
      obtain ⟨aligned, apart, paged⟩ := placed
      rw [List.forall_mem_cons] at aligned permitted coded
      rw [List.map_cons, List.nodup_cons] at apart
      obtain ⟨middle, first, bounds, kept, written, beside⟩ :=
        controlProbe_spec command guarded permitted.1 aligned.1 paged coded.1
      -- other call sites are eight bytes away, as all of them are aligned
      have away : ∀ other ∈ probes, ∀ place, other.code.callSite.toNat ≤ place →
          place < other.code.callSite.toNat + 5 → Outside [probe] place := by
        intro other listed place above below
        have distinct : probe.code.callSite.toNat ≠ other.code.callSite.toNat := by
          intro same
          apply apart.1
          rw [UInt64.toNat_inj.mp same]
          exact List.mem_map_of_mem listed
        have eight := aligned.2 other listed
        simp only [Outside, List.mem_singleton, forall_eq]
        omega
      have unfound : ∀ address, middle.find address = machine.find address := by
        intro address
        rw [find_eq, find_eq, bounds]
      obtain ⟨next, after, rest, sameBounds, guardedNext, controlled, codedNext, outsideNext⟩ :=
        ih (fun next same => answers next (same.trans bounds)) kept
          (fun other listed matched index found =>
            permitted.2 other listed matched index (by rw [← unfound]; exact found))
          ⟨aligned.2, apart.2, paged_of_bounds bounds paged⟩
          (fun other listed => (coded.2 other listed).congr fun place above below =>
            beside place (away other listed place above below))
      refine ⟨next, _ :: after, ?_, sameBounds.trans bounds, guardedNext,
        .cons ⟨_, answers machine rfl guarded _, rfl⟩ controlled, ?_, ?_⟩
      · simp [controlProbes, first, rest]
      · rw [List.forall_mem_cons]
        refine ⟨written.congr ?_, codedNext⟩
        intro place above below
        rw [callSite_controlled] at above below
        apply outsideNext
        intro other listed
        have distinct : probe.code.callSite.toNat ≠ other.code.callSite.toNat := by
          intro same
          apply apart.1
          rw [UInt64.toNat_inj.mp same]
          exact List.mem_map_of_mem listed
        have eight := aligned.2 other listed
        omega
      · intro place outside
        rw [outsideNext place fun other listed => outside other (List.mem_cons_of_mem _ listed)]
        apply beside
        simpa [Outside] using outside probe List.mem_cons_self

variable {target : Target} {request : Command × ProbeKey}

structure Sound (allowed : Nat → Prop) (target : Target) : Prop where
  placed : Placed target.machine target.probes
  guarded : Guarded allowed target.machine
  coded : ∀ probe ∈ target.probes, Coded target.machine.memory probe.code

theorem mem_matchedSegments {index : Nat} : index ∈ matchedSegments target key ↔
    ∃ probe ∈ target.probes, probe.match key = true ∧
      target.machine.find probe.code.callSite = some index := by
  rw [matchedSegments, List.mem_filter, List.mem_range, List.any_eq_true]
  simp only [Bool.and_eq_true, decide_eq_true_eq]
  refine and_iff_right_of_imp ?_
  rintro ⟨probe, -, -, found⟩
  obtain ⟨segment, located, -⟩ := exists_of_find found
  exact (List.getElem?_eq_some_iff.mp located).choose

/-- What a command does up to the protections that are restored at its end. -/
theorem probeCtl_spec {answer : UInt64 → Bool → Prop} (sound : Sound allowed target)
    (permitted : ∀ index ∈ matchedSegments target request.2,
      ∀ calls, kernel calls index .all = true → allowed index)
    (answers : ∀ next : Machine, next.bounds = target.machine.bounds → Guarded allowed next →
      ∀ address, answer address (next.reaches kernel address)) :
    ∃ next after, probeCtl kernel target request = some
        ⟨restoreAllProtections kernel next (matchedSegments target request.2), after⟩ ∧
      next.bounds = target.machine.bounds ∧ Guarded allowed next ∧
      List.Forall₂ (Controlled request.1 request.2 answer) target.probes after ∧
      (∀ probe ∈ after, Coded next.memory probe.code) ∧
      ∀ place, Outside target.probes place → next.memory place = target.machine.memory place := by
  obtain ⟨keeps, kept⟩ := makeAllWritable_spec sound.guarded permitted
  obtain ⟨next, after, run, bounds, guarded, controlled, coded, outside⟩ :=
    @controlProbes_spec kernel (makeAllWritable kernel target.machine (matchedSegments target request.2))
      allowed request.2 target.probes request.1 answer
      (fun next same => answers next (same.trans keeps.bounds)) kept
      (by
        intro probe listed matched index found
        rw [keeps.find] at found
        exact permitted index (mem_matchedSegments.mpr ⟨probe, listed, matched, found⟩))
      ⟨sound.placed.aligned, sound.placed.apart, paged_of_bounds keeps.bounds sound.placed.paged⟩
      (by
        rw [keeps.memory]
        exact sound.coded)
  refine ⟨next, after, ?_, bounds.trans keeps.bounds, guarded, controlled, coded, ?_⟩
  · simp [probeCtl, run]
  · intro place apart
    rw [outside place apart, keeps.memory]

def LiveProbe.site (probe : LiveProbe) : List Char × List Char × UInt32 × UInt64 × UInt64 :=
  (probe.name, probe.file, probe.line, probe.code.callSite, probe.code.trampoline)

theorem site_controlled (command : Command) (key : ProbeKey) (reached : Bool) (probe : LiveProbe) :
    (controlled command key reached probe).site = probe.site := by
  rw [controlled]
  split
  · simp [LiveProbe.site]
  · rfl

theorem map_site_of_controlled {command : Command} {answer : UInt64 → Bool → Prop}
    {after : List LiveProbe} (controlled : List.Forall₂ (Controlled command key answer) probes after) :
    after.map LiveProbe.site = probes.map LiveProbe.site := by
  induction controlled with
  | nil => rfl
  | cons first rest ih =>
      obtain ⟨reached, -, rfl⟩ := first
      rw [List.map_cons, List.map_cons, ih, site_controlled]

theorem callSites_of_sites {after : List LiveProbe}
    (same : after.map LiveProbe.site = probes.map LiveProbe.site) :
    (after.map fun probe => probe.code.callSite) = probes.map fun probe => probe.code.callSite := by
  have part := congrArg (List.map fun site => site.2.2.2.1) same
  rw [List.map_map, List.map_map] at part
  exact part

theorem forall_callSites {after : List LiveProbe} {property : UInt64 → Prop}
    (same : after.map LiveProbe.site = probes.map LiveProbe.site)
    (holds : ∀ probe ∈ probes, property probe.code.callSite) :
    ∀ probe ∈ after, property probe.code.callSite := by
  intro probe listed
  have member : probe.code.callSite ∈ after.map fun probe => probe.code.callSite :=
    List.mem_map_of_mem listed
  rw [callSites_of_sites same] at member
  obtain ⟨other, present, together⟩ := List.mem_map.mp member
  rw [← together]
  exact holds other present

theorem Placed.congr {next : Machine} {after : List LiveProbe} (placed : Placed machine probes)
    (bounds : next.bounds = machine.bounds)
    (same : after.map LiveProbe.site = probes.map LiveProbe.site) : Placed next after where
  aligned := @forall_callSites probes after (fun callSite => callSite.toNat % 8 = 0) same placed.aligned
  apart := by
    rw [callSites_of_sites same]
    exact placed.apart
  paged := paged_of_bounds bounds placed.paged

/-- A command ends, and changes only the call sites, as the attributes change. -/
theorem probeCtl_sound (sound : Sound allowed target)
    (permitted : ∀ index calls, kernel calls index .all = true → allowed index)
    {answer : UInt64 → Bool → Prop}
    (answers : ∀ next : Machine, next.bounds = target.machine.bounds → Guarded allowed next →
      ∀ address, answer address (next.reaches kernel address)) :
    ∃ next, probeCtl kernel target request = some next ∧ Sound allowed next ∧
      next.machine.bounds = target.machine.bounds ∧
      List.Forall₂ (Controlled request.1 request.2 answer) target.probes next.probes ∧
      ∀ place, Outside target.probes place →
        next.machine.memory place = target.machine.memory place := by
  obtain ⟨machine, after, run, bounds, guarded, controlled, coded, outside⟩ :=
    probeCtl_spec sound (fun index _ => permitted index) answers
  obtain ⟨keeps, kept⟩ := @restoreAllProtections_spec kernel machine allowed
    (matchedSegments target request.2) guarded
  have sameBounds := keeps.bounds.trans bounds
  refine ⟨_, run, ⟨sound.placed.congr sameBounds (map_site_of_controlled controlled), kept, ?_⟩,
    sameBounds, controlled, ?_⟩
  · rw [keeps.memory]
    exact coded
  · intro place apart
    rw [keeps.memory]
    exact outside place apart

/-- Between two commands no segment is left open, where all protections can be restored. -/
theorem probeCtl_closes {next : Target} (sound : Sound (fun _ => False) target)
    (restores : Restores kernel target.machine) (run : probeCtl kernel target request = some next) :
    Guarded (fun _ => False) next.machine := by
  have opened : Sound (· ∈ matchedSegments target request.2) target :=
    ⟨sound.placed, ⟨sound.guarded.pages, fun index segment located marked =>
      (sound.guarded.patchable index segment located marked).elim⟩, sound.coded⟩
  obtain ⟨machine, after, done, bounds, guarded, -⟩ :=
    @probeCtl_spec kernel _ target request (fun _ _ => True) opened
      (fun index listed _ _ => listed) (fun _ _ _ _ => trivial)
  rw [run, Option.some.injEq] at done
  subst done
  exact restoreAllProtections_closes (restores.congr bounds) guarded

end Commands

section Runs

variable {kernel : Kernel} {target : Target} {allowed : Nat → Prop}

/-- A jump with 32 bits gets from the call site to the trampoline. -/
def WithinReach (code : Patching.Probe) : Prop :=
  -2 ^ 31 ≤ (code.trampoline.toNat : Int) - (code.callSite.toNat + 5) ∧
    (code.trampoline.toNat : Int) - (code.callSite.toNat + 5) < 2 ^ 31

theorem jumpTarget_of_coded {memory : Memory} {code : Patching.Probe} (coded : Coded memory code)
    (reach : WithinReach code) :
    jumpTarget memory code.callSite = if code.isActive then some code.trampoline else none := by
  rw [Coded, current] at coded
  cases active : code.isActive with
  | false =>
      rw [active] at coded
      have opcode := ((Memory.holds_cons _ _ _ _).mp coded).1
      have other : (0x0F : UInt8) ≠ Patching.opcodeJmp := by decide
      simp [jumpTarget, opcode, other]
  | true =>
      rw [active] at coded
      have jump := @Patching.jumpTarget_of_holds memory code.callSite
        (Patching.offset code.callSite code.trampoline) []
        (by rw [List.append_nil]; exact coded)
      rw [jump, Patching.add_signExtended_offset reach.1 reach.2]
      rfl

theorem run_sound (sound : Sound allowed target)
    (permitted : ∀ index calls, kernel calls index .all = true → allowed index)
    (requests : List (Command × ProbeKey)) :
    ∃ final, run (probeCtl kernel) target requests = some final ∧ Sound allowed final ∧
      final.machine.bounds = target.machine.bounds ∧
      final.probes.map LiveProbe.site = target.probes.map LiveProbe.site ∧
      ∀ place, Outside target.probes place →
        final.machine.memory place = target.machine.memory place := by
  induction requests generalizing target with
  | nil => exact ⟨target, rfl, sound, rfl, rfl, fun _ _ => rfl⟩
  | cons request requests ih =>
      obtain ⟨next, taken, kept, bounds, controlled, beside⟩ :=
        @probeCtl_sound kernel allowed target request sound permitted (fun _ _ => True)
          (fun _ _ _ _ => trivial)
      have sites := map_site_of_controlled controlled
      obtain ⟨final, rest, keptFinal, boundsFinal, sitesFinal, besideFinal⟩ := ih kept
      refine ⟨final, ?_, keptFinal, boundsFinal.trans bounds, sitesFinal.trans sites, ?_⟩
      · rw [run, taken]
        exact rest
      · intro place outside
        rw [besideFinal place ?_, beside place outside]
        exact @forall_callSites _ _
          (fun callSite => place < callSite.toNat ∨ callSite.toNat + 5 ≤ place) sites outside

theorem run_closes {final : Target} (sound : Sound (fun _ => False) target)
    (restores : Restores kernel target.machine) {requests : List (Command × ProbeKey)}
    (reached : run (probeCtl kernel) target requests = some final) :
    Guarded (fun _ => False) final.machine := by
  induction requests generalizing target with
  | nil =>
      cases reached
      exact sound.guarded
  | cons request requests ih =>
      obtain ⟨next, taken, rest⟩ := run_cons_eq_some reached
      have closed := probeCtl_closes sound restores taken
      have opened : Sound (fun _ => True) target :=
        ⟨sound.placed, ⟨sound.guarded.pages, fun _ _ _ _ => trivial⟩, sound.coded⟩
      obtain ⟨other, same, kept, bounds, -⟩ :=
        @probeCtl_sound kernel _ target request opened (fun _ _ _ => trivial) (fun _ _ => True)
          (fun _ _ _ _ => trivial)
      obtain rfl : next = other := Option.some_inj.mp (taken.symm.trans same)
      exact ih ⟨kept.placed, closed, kept.coded⟩ (restores.congr bounds) rest

/-- The target as nothing has been enabled yet, or between two commands. -/
structure AtRest (target : Target) : Prop where
  placed : Placed target.machine target.probes
  closed : ∀ segment ∈ target.machine.segments,
    segment.isPatchable = false ∧ segment.pages = segment.protections
  coded : ∀ probe ∈ target.probes, Coded target.machine.memory probe.code

theorem AtRest.sound (rest : AtRest target) (allowed : Nat → Prop) : Sound allowed target := by
  refine ⟨rest.placed, ⟨?_, ?_⟩, rest.coded⟩
  · intro segment listed
    obtain ⟨closed, pages⟩ := rest.closed segment listed
    simp [closed, pages]
  · intro index segment located marked
    have closed := (rest.closed segment (List.mem_of_getElem? located)).1
    rw [closed] at marked
    cases marked

/--
Whatever `mprotect` returns, no command makes the process store to pages that are not writable.
After any commands each call site is the NOP or the jump to its own trampoline, as the attributes
say; the memory besides call sites is as before, and so are the protections of the pages, except
where a call to restore them has failed.
-/
theorem call_sites_follow_attributes (kernel : Kernel) (target : Target) (rest : AtRest target)
    (requests : List (Command × ProbeKey)) :
    ∃ final, run (probeCtl kernel) target requests = some final ∧
      final.probes.map LiveProbe.site = target.probes.map LiveProbe.site ∧
      (∀ probe ∈ final.probes, Coded final.machine.memory probe.code ∧
        (WithinReach probe.code → jumpTarget final.machine.memory probe.code.callSite =
          if probe.code.isActive then some probe.code.trampoline else none)) ∧
      (∀ place, Outside target.probes place →
        final.machine.memory place = target.machine.memory place) ∧
      (∀ segment ∈ final.machine.segments,
        segment.pages = if segment.isPatchable then .all else segment.protections) ∧
      (Restores kernel target.machine → ∀ segment ∈ final.machine.segments,
        segment.pages = segment.protections) := by
  obtain ⟨final, reached, sound, -, sites, outside⟩ :=
    run_sound (rest.sound fun _ => True) (fun _ _ _ => trivial) requests
  refine ⟨final, reached, sites, ?_, outside, sound.guarded.pages, ?_⟩
  · intro probe listed
    exact ⟨sound.coded probe listed, jumpTarget_of_coded (sound.coded probe listed)⟩
  · intro restores segment listed
    have closed := run_closes (rest.sound fun _ => False) restores reached
    obtain ⟨index, located⟩ := List.getElem?_of_mem listed
    have shut : segment.isPatchable = false := by
      cases marked : segment.isPatchable with
      | false => rfl
      | true => exact (closed.patchable index segment located marked).elim
    rw [closed.pages segment listed, shut]
    rfl

def readExecute : Protections := ⟨true, false, true⟩

def named (name : String) : ProbeKey := ⟨name.toList, [], 0⟩

/-- Two probes of a program, eight bytes apart, and one of a library. -/
def orderTarget : Target where
  machine := {
    memory := Memory.write (Memory.write (fun _ => 0) 0x401000
      (Patching.fiveByteNop ++ [0xC3, 0x90, 0x90] ++ Patching.fiveByteNop)) 0x700010
      Patching.fiveByteNop
    segments := [⟨0x400000, 0x402000, readExecute, false, readExecute⟩,
      ⟨0x700000, 0x701000, readExecute, false, readExecute⟩]
    calls := 0 }
  probes := [⟨"OrderBegin".toList, "Order.C".toList, 20, ⟨0x401000, 0x400100, 0⟩⟩,
    ⟨"OrderEnd".toList, "Order.C".toList, 30, ⟨0x401008, 0x400100, 0⟩⟩,
    ⟨"LibCall".toList, "Lib.C".toList, 7, ⟨0x700010, 0x700800, 0⟩⟩]

def orderRequests : List (Command × ProbeKey) :=
  [(.enable, named "OrderBegin"), (.enable, named "LibCall"), (.disable, named "OrderEnd")]

theorem orderTarget_atRest : AtRest orderTarget where
  placed := ⟨by decide, by decide, by decide⟩
  closed := by decide
  coded := by
    have codes : ∀ probe ∈ orderTarget.probes, probe.code.isActive = false ∧
        orderTarget.machine.memory.read probe.code.callSite.toNat 5 = Patching.fiveByteNop := by
      decide
    intro probe listed
    obtain ⟨inactive, nop⟩ := codes probe listed
    rw [Coded, current, inactive]
    exact nop

/-- No page of the library becomes writable, and the first call to restore protections fails. -/
def strictKernel : Kernel := fun calls index protections =>
  decide (calls ≠ 1) && (index = 0 || !protections.canWrite)

theorem call_sites_follow_attributes_strictKernel :
    ∃ final, run (probeCtl strictKernel) orderTarget orderRequests = some final ∧
      final.probes.map LiveProbe.site = orderTarget.probes.map LiveProbe.site ∧
      (∀ probe ∈ final.probes, Coded final.machine.memory probe.code ∧
        (WithinReach probe.code → jumpTarget final.machine.memory probe.code.callSite =
          if probe.code.isActive then some probe.code.trampoline else none)) ∧
      (∀ place, Outside orderTarget.probes place →
        final.machine.memory place = orderTarget.machine.memory place) ∧
      (∀ segment ∈ final.machine.segments,
        segment.pages = if segment.isPatchable then .all else segment.protections) ∧
      (Restores strictKernel orderTarget.machine → ∀ segment ∈ final.machine.segments,
        segment.pages = segment.protections) :=
  call_sites_follow_attributes strictKernel orderTarget orderTarget_atRest orderRequests

/-- After the first command the code of the program is left writable. -/
example : (run (probeCtl strictKernel) orderTarget (orderRequests.take 1)).map
    (fun target => target.machine.segments.map Segment.pages) = some [.all, readExecute] := by
  decide

/-- The probes as the handler of requests has them, where some segments can be made writable. -/
def shown (grants : Nat → Bool) (target : Target) : List Framework.Probe :=
  target.probes.map fun probe =>
    probe.shown ((target.machine.find probe.code.callSite).any grants)

theorem reaches_of_grants {grants : Nat → Bool} {machine : Machine}
    (constant : ∀ calls index, kernel calls index .all = grants index)
    (guarded : Guarded (grants · = true) machine) (address : UInt64) :
    machine.reaches kernel address = (machine.find address).any grants := by
  rw [Machine.reaches]
  cases found : machine.find address with
  | none => rfl
  | some index =>
      obtain ⟨segment, located, -⟩ := exists_of_find found
      have opened := guarded.patchable index segment located
      simp only [Option.any_some, located, constant]
      cases marked : segment.isPatchable with
      | false => simp
      | true => simp [opened marked]

theorem shown_controlled (command : Command) (key : ProbeKey) (patchable : Bool) (probe : LiveProbe) :
    (controlled command key patchable probe).shown patchable =
      if (probe.shown patchable).match key then command.apply (probe.shown patchable)
      else probe.shown patchable := by
  have same : (probe.shown patchable).match key = probe.match key := rfl
  rw [same, controlled]
  cases probe.match key with
  | false => rfl
  | true =>
      cases patchable with
      | false =>
          cases command with
          | enable => rfl
          | disable => rfl
      | true =>
          cases command with
          | enable =>
              have active := probe.code.isActive_markActive
              simp [LiveProbe.shown, mark, active, Framework.Command.apply, Framework.Probe.activate]
          | disable =>
              have inactive := probe.code.isActive_markInActive
              simp [LiveProbe.shown, mark, inactive, Framework.Command.apply, Framework.Probe.deactivate]

theorem shown_of_controlled {grants : Nat → Bool} {command : Command} {key : ProbeKey}
    {machine : Machine} {probes after : List LiveProbe}
    (controlled : List.Forall₂ (Controlled command key
      fun address reached => reached = (machine.find address).any grants) probes after) :
    after.map (fun probe => probe.shown ((machine.find probe.code.callSite).any grants)) =
      Framework.probeCtl command key
        (probes.map fun probe => probe.shown ((machine.find probe.code.callSite).any grants)) := by
  rw [Framework.probeCtl_eq, List.map_map]
  induction controlled with
  | nil => rfl
  | cons first rest ih =>
      obtain ⟨reached, known, rfl⟩ := first
      refine congrArg₂ List.cons ?_ ih
      simp only [callSite_controlled, ← known, shown_controlled, Function.comp_apply]

/--
Where it does not change which segments can be made writable, commands over the address space do
what they do in the model of the requests, in which each probe is patchable or not.
-/
theorem probeCtl_refines (kernel : Kernel) (grants : Nat → Bool)
    (constant : ∀ calls index, kernel calls index .all = grants index) (target : Target)
    (rest : AtRest target) (requests : List (Command × ProbeKey)) :
    ∃ final, run (probeCtl kernel) target requests = some final ∧
      shown grants final = requests.foldl
        (fun probes request => Framework.probeCtl request.1 request.2 probes) (shown grants target) := by
  have sound := rest.sound (grants · = true)
  clear rest
  induction requests generalizing target with
  | nil => exact ⟨target, rfl, rfl⟩
  | cons request requests ih =>
      obtain ⟨next, taken, kept, bounds, controlled, -⟩ :=
        @probeCtl_sound kernel _ target request sound
          (fun index calls granted => by rw [← constant calls index]; exact granted)
          (fun address reached => reached = (target.machine.find address).any grants)
          (by
            intro next same guarded address
            rw [reaches_of_grants constant guarded, find_eq, same, ← find_eq])
      have found : ∀ address, next.machine.find address = target.machine.find address := by
        intro address
        rw [find_eq, find_eq, bounds]
      have step : shown grants next =
          Framework.probeCtl request.1 request.2 (shown grants target) := by
        have same := shown_of_controlled controlled
        rw [shown]
        simp only [found]
        exact same
      obtain ⟨final, others, same⟩ := ih next kept
      refine ⟨final, ?_, ?_⟩
      · rw [run, taken]
        exact others
      · rw [same, step, List.foldl_cons]

def programKernel : Kernel := fun _ index protections => index = 0 || !protections.canWrite

theorem probeCtl_refines_programKernel :
    ∃ final, run (probeCtl programKernel) orderTarget orderRequests = some final ∧
      shown (· = 0) final =
        [⟨"OrderBegin".toList, "Order.C".toList, 20, true, true⟩,
          ⟨"OrderEnd".toList, "Order.C".toList, 30, true, false⟩,
          ⟨"LibCall".toList, "Lib.C".toList, 7, false, false⟩] := by
  have constant : ∀ calls index, programKernel calls index .all = decide (index = 0) := by
    intro calls index
    simp [programKernel, Protections.all]
  obtain ⟨final, reached, same⟩ :=
    probeCtl_refines programKernel (· = 0) constant orderTarget orderTarget_atRest orderRequests
  exact ⟨final, reached, same.trans (by decide)⟩

end Runs

end Xpedite.Probes.Switching
