import Xpedite.Framework.HandlerCore

/-!
Commands to the probes.  What matches a key does not depend on what is active, so that a
row of equal commands amounts to one command to all that is matched.
-/

namespace Xpedite.Framework

def Command.apply : Command → Probe → Probe
  | .enable => Probe.activate
  | .disable => Probe.deactivate

theorem probeCtl_eq (command : Command) (key : ProbeKey) (probes : List Probe) :
    probeCtl command key probes =
      probes.map fun probe => if probe.match key then command.apply probe else probe := by
  cases command with
  | enable => rfl
  | disable => rfl

theorem Command.match_apply (command : Command) (probe : Probe) (key : ProbeKey) :
    (command.apply probe).match key = probe.match key := by
  cases command with
  | enable =>
      simp only [Command.apply, Probe.activate]
      split
      · rfl
      · rfl
  | disable =>
      simp only [Command.apply, Probe.deactivate]
      split
      · rfl
      · rfl

theorem Command.apply_apply (command : Command) (probe : Probe) :
    command.apply (command.apply probe) = command.apply probe := by
  cases command with
  | enable =>
      cases patchable : probe.patchable with
      | false => simp [Command.apply, Probe.activate, patchable]
      | true => simp [Command.apply, Probe.activate, patchable]
  | disable =>
      cases patchable : probe.patchable with
      | false => simp [Command.apply, Probe.deactivate, patchable]
      | true => simp [Command.apply, Probe.deactivate, patchable]

theorem foldl_probeCtl (command : Command) (keys : List ProbeKey) (probes : List Probe) :
    keys.foldl (fun probes key => probeCtl command key probes) probes =
      probes.map fun probe => if keys.any probe.match then command.apply probe else probe := by
  induction keys generalizing probes with
  | nil => simp
  | cons key keys ih =>
      rw [List.foldl_cons, ih, probeCtl_eq, List.map_map]
      apply List.map_congr_left
      intro probe _
      simp only [Function.comp_apply, List.any_cons]
      by_cases first : probe.match key = true
      · have others : keys.any (command.apply probe).match = keys.any probe.match :=
          congrArg keys.any (funext (command.match_apply probe))
        simp only [first, if_true, Bool.true_or, others]
        split
        · exact command.apply_apply probe
        · rfl
      · simp only [first, Bool.false_eq_true, if_false, Bool.false_or]

theorem foldl_keeps {α ε : Type} (part : State → α) (change : State → ε → State)
    (keeps : ∀ state entry, part (change state entry) = part state) (entries : List ε)
    (state : State) : part (entries.foldl change state) = part state := by
  induction entries generalizing state with
  | nil => rfl
  | cons entry entries ih => exact (ih (change state entry)).trans (keeps state entry)

section Loops

variable (entries : List (ProbeKey × ProbeKey)) (state : State)

theorem activateProbes_control :
    (Profile.activateProbes entries state).control = state.control :=
  foldl_keeps State.control
    (fun state (entry : ProbeKey × ProbeKey) => Profile.activateProbe state entry.1 entry.2)
    (fun _ _ => rfl) entries state

theorem activateProbes_collector :
    (Profile.activateProbes entries state).collector = state.collector :=
  foldl_keeps State.collector
    (fun state (entry : ProbeKey × ProbeKey) => Profile.activateProbe state entry.1 entry.2)
    (fun _ _ => rfl) entries state

theorem activateProbes_pollInterval :
    (Profile.activateProbes entries state).pollInterval = state.pollInterval :=
  foldl_keeps State.pollInterval
    (fun state (entry : ProbeKey × ProbeKey) => Profile.activateProbe state entry.1 entry.2)
    (fun _ _ => rfl) entries state

theorem deactivateProbes_control :
    (Profile.deactivateProbes entries state).control = state.control :=
  foldl_keeps State.control
    (fun state (entry : ProbeKey × ProbeKey) => Profile.deactivateProbe state entry.1 entry.2)
    (fun _ _ => rfl) entries state

theorem deactivateProbes_pollInterval :
    (Profile.deactivateProbes entries state).pollInterval = state.pollInterval :=
  foldl_keeps State.pollInterval
    (fun state (entry : ProbeKey × ProbeKey) => Profile.deactivateProbe state entry.1 entry.2)
    (fun _ _ => rfl) entries state

theorem activateProbes_probes :
    (Profile.activateProbes entries state).probes =
      state.probes.map fun probe =>
        if entries.any fun entry => probe.match entry.2 then probe.activate else probe := by
  have pushed : (Profile.activateProbes entries state).probes =
      (entries.map Prod.snd).foldl (fun probes key => probeCtl .enable key probes)
        state.probes := by
    induction entries generalizing state with
    | nil => rfl
    | cons entry entries ih => exact ih (Profile.activateProbe state entry.1 entry.2)
  rw [pushed, foldl_probeCtl .enable (entries.map Prod.snd) state.probes]
  simp only [List.any_map]
  rfl

theorem mem_activateProbes_activeProbes (key : ProbeKey) :
    key ∈ (Profile.activateProbes entries state).activeProbes ↔
      key ∈ state.activeProbes ∨ ∃ entry ∈ entries, entry.1 = key := by
  induction entries generalizing state with
  | nil => simp [Profile.activateProbes]
  | cons entry entries ih =>
      have later := ih (Profile.activateProbe state entry.1 entry.2)
      rw [Profile.activateProbes, List.foldl_cons]
      refine later.trans ?_
      simp only [Profile.activateProbe, List.mem_insert_iff, List.exists_mem_cons_iff]
      rw [eq_comm, or_comm (a := entry.1 = key), or_assoc]

end Loops

theorem cStr_terminated (text : List Char) : cStr (text ++ ['\x00']) = cStr text := by
  induction text with
  | nil => rfl
  | cons char text ih =>
      by_cases ends : char = '\x00'
      · simp [cStr, ends]
      · simpa [cStr, ends] using ih

theorem ProbeKey.pointed_nameless {key : ProbeKey} (nameless : key.name = []) (bytes : List Char) :
    key.pointed bytes = key := by
  rw [pointed, if_pos nameless, ← nameless]

theorem Probe.match_pointed (probe : Probe) (key : ProbeKey) :
    probe.match (key.pointed key.name) = probe.match key := by
  by_cases nameless : key.name = []
  · rw [ProbeKey.pointed_nameless nameless]
  · simp [Probe.match, Probe.matchName, Probe.matchLocation, ProbeKey.pointed, nameless,
      cStr_terminated]

end Xpedite.Framework
