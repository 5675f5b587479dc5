import Mathlib.Data.List.Induction
import Xpedite.Lib.Snoc
import Xpedite.Txn.Outline

/-!
Which kind of segment is open after a prefix of a thread, read off the roles of
its counters.
-/

namespace Xpedite.Txn

open Xpedite.Lib

def Role.bounds (role : Role) : Prop := role = .suspends ∨ role = .ends

def Role.continues (role : Role) : Prop := role = .begins ∨ role = .plain

def Settled (roles : List Role) (since : List Role) : Prop :=
  ∃ before, roles = before ++ since ∧ (∀ role ∈ since, role.continues) ∧
    (before = [] ∨ ∃ earlier role, before = earlier ++ [role] ∧ role.bounds)

def OpensBegun (roles : List Role) : Prop := ∃ since, Settled roles since ∧ .begins ∈ since

def OpensResumed (roles : List Role) : Prop :=
  ∃ before since, roles = before ++ .resumes :: since ∧ ∀ role ∈ since, role.continues

theorem settled_nil : Settled [] [] := ⟨[], rfl, by simp, .inl rfl⟩

theorem settled_bounds (roles : List Role) {role : Role} (bounds : role.bounds) :
    Settled (roles ++ [role]) [] :=
  ⟨roles ++ [role], by simp, by simp, .inr ⟨roles, role, rfl, bounds⟩⟩

theorem Settled.snoc {roles since : List Role} (settled : Settled roles since) {role : Role}
    (continues : role.continues) : Settled (roles ++ [role]) (since ++ [role]) := by
  obtain ⟨before, split, all, last⟩ := settled
  refine ⟨before, by simp [split], ?_, last⟩
  exact List.forall_mem_append.mpr ⟨all, List.forall_mem_singleton.mpr continues⟩

theorem Settled.of_snoc {roles since : List Role} {role : Role}
    (settled : Settled (roles ++ [role]) since) :
    (since = [] ∧ role.bounds) ∨ ∃ earlier, since = earlier ++ [role] ∧ role.continues ∧
      Settled roles earlier := by
  obtain ⟨before, split, all, last⟩ := settled
  rcases List.eq_nil_or_concat since with rfl | ⟨earlier, final, rfl⟩
  · left
    rcases last with rfl | ⟨early, bounding, rfl, bounds⟩
    · simp at split
    · rw [List.append_nil, List.append_singleton_inj] at split
      exact ⟨rfl, split.2 ▸ bounds⟩
  · right
    rw [List.concat_eq_append, ← List.append_assoc, List.append_singleton_inj] at split
    obtain ⟨start, rfl⟩ := split
    refine ⟨earlier, by simp, all role (by simp), before, start, ?_, last⟩
    exact fun other member => all other (by simp [member])

theorem OpensResumed.of_snoc {roles : List Role} {role : Role}
    (opens : OpensResumed (roles ++ [role])) :
    role = .resumes ∨ (role.continues ∧ OpensResumed roles) := by
  obtain ⟨before, since, split, all⟩ := opens
  rcases snoc_eq_append_cons.mp split with ⟨_, _, rfl⟩ | ⟨earlier, rfl, start⟩
  · exact .inl rfl
  · exact .inr ⟨all role (by simp), before, earlier, start,
      fun other member => all other (by simp [member])⟩

theorem OpensResumed.snoc {roles : List Role} (opens : OpensResumed roles) {role : Role}
    (continues : role.continues) : OpensResumed (roles ++ [role]) := by
  obtain ⟨before, since, split, all⟩ := opens
  refine ⟨before, since ++ [role], by simp [split], ?_⟩
  exact List.forall_mem_append.mpr ⟨all, List.forall_mem_singleton.mpr continues⟩

theorem settled_or_resumed (roles : List Role) :
    (∃ since, Settled roles since) ∨ OpensResumed roles := by
  induction roles using List.reverseRecOn with
  | nil => exact .inl ⟨[], settled_nil⟩
  | append_singleton roles role ih =>
      cases role with
      | resumes => exact .inr ⟨roles, [], rfl, by simp⟩
      | suspends => exact .inl ⟨[], settled_bounds roles (.inl rfl)⟩
      | ends => exact .inl ⟨[], settled_bounds roles (.inr rfl)⟩
      | begins =>
          rcases ih with ⟨since, settled⟩ | opens
          · exact .inl ⟨_, settled.snoc (.inl rfl)⟩
          · exact .inr (opens.snoc (.inl rfl))
      | plain =>
          rcases ih with ⟨since, settled⟩ | opens
          · exact .inl ⟨_, settled.snoc (.inr rfl)⟩
          · exact .inr (opens.snoc (.inr rfl))

theorem not_settled_of_resumed {roles : List Role} (opens : OpensResumed roles) (since : List Role) :
    ¬Settled roles since := by
  induction roles using List.reverseRecOn generalizing since with
  | nil =>
      obtain ⟨before, since, split, _⟩ := opens
      simp at split
  | append_singleton roles role ih =>
      intro settled
      rcases opens.of_snoc with rfl | ⟨continues, earlier⟩
      · rcases settled.of_snoc with ⟨_, bounds⟩ | ⟨_, _, continues, _⟩
        · rcases bounds with bounds | bounds <;> cases bounds
        · rcases continues with continues | continues <;> cases continues
      · rcases settled.of_snoc with ⟨_, bounds⟩ | ⟨since, _, _, tail⟩
        · rcases bounds with rfl | rfl <;> rcases continues with same | same <;> cases same
        · exact ih earlier since tail

theorem opensBegun_snoc_begins (roles : List Role) :
    OpensBegun (roles ++ [.begins]) ↔ ¬OpensResumed roles := by
  constructor
  · rintro ⟨since, settled, _⟩ opens
    rcases settled.of_snoc with ⟨_, bounds⟩ | ⟨earlier, _, _, tail⟩
    · rcases bounds with bounds | bounds <;> cases bounds
    · exact not_settled_of_resumed opens earlier tail
  · intro notResumed
    obtain ⟨since, settled⟩ := (settled_or_resumed roles).resolve_right notResumed
    exact ⟨_, settled.snoc (.inl rfl), by simp⟩

theorem opensBegun_snoc_plain (roles : List Role) :
    OpensBegun (roles ++ [.plain]) ↔ OpensBegun roles := by
  constructor
  · rintro ⟨since, settled, begins⟩
    rcases settled.of_snoc with ⟨rfl, _⟩ | ⟨earlier, rfl, _, tail⟩
    · simp at begins
    · exact ⟨earlier, tail, by simpa using begins⟩
  · rintro ⟨since, settled, begins⟩
    exact ⟨_, settled.snoc (.inr rfl), by simp [begins]⟩

theorem not_opensBegun_snoc {role : Role} (stops : ¬role.continues) (roles : List Role) :
    ¬OpensBegun (roles ++ [role]) := by
  rintro ⟨since, settled, begins⟩
  rcases settled.of_snoc with ⟨rfl, _⟩ | ⟨_, _, continues, _⟩
  · simp at begins
  · exact stops continues

theorem opensResumed_snoc_continues {role : Role} (continues : role.continues) (roles : List Role) :
    OpensResumed (roles ++ [role]) ↔ OpensResumed roles := by
  constructor
  · intro opens
    rcases opens.of_snoc with rfl | ⟨_, earlier⟩
    · rcases continues with same | same <;> cases same
    · exact earlier
  · exact fun opens => opens.snoc continues

theorem opensResumed_snoc_resumes (roles : List Role) : OpensResumed (roles ++ [.resumes]) :=
  ⟨roles, [], rfl, by simp⟩

theorem not_opensResumed_snoc {role : Role} (bounds : role.bounds) (roles : List Role) :
    ¬OpensResumed (roles ++ [role]) := by
  intro opens
  rcases opens.of_snoc with rfl | ⟨continues, _⟩
  · rcases bounds with same | same <;> cases same
  · rcases bounds with rfl | rfl <;> rcases continues with same | same <;> cases same

theorem Probe.canResumeTxn_of_role {probe : Probe} (resumes : probe.role = .resumes) :
    probe.canResumeTxn = true := by
  revert resumes
  simp only [Probe.role]
  split_ifs <;> simp_all

theorem Probe.canBeginTxn_of_role {probe : Probe} (begins : probe.role = .begins) :
    probe.canBeginTxn = true := by
  revert begins
  simp only [Probe.role]
  split_ifs <;> simp_all

theorem Probe.canEndTxn_of_bounds {probe : Probe} (bounds : probe.role.bounds) :
    probe.canEndTxn = true ∨ probe.canSuspendTxn = true := by
  revert bounds
  simp only [Probe.role, Role.bounds]
  split_ifs <;> simp_all

theorem Probe.role_unlinked {probe : Probe}
    (unlinked : probe.canResumeTxn = false ∧ probe.canSuspendTxn = false) :
    probe.role ≠ .resumes ∧ probe.role ≠ .suspends := by
  simp only [Probe.role, unlinked]
  split_ifs <;> simp_all

variable (probeMap : Probe → Probe)

def roleOf (counter : Counter) : Role := (probeMap counter.probe).role

structure Segment.Sound (segment : Segment) : Prop where
  opened : ∃ first rest, segment.counters = first :: rest ∧
    match segment.origin with
    | .begun => roleOf probeMap first = .begins
    | .resumed linkId => roleOf probeMap first = .resumes ∧ first.data = linkId
    | .headless => (roleOf probeMap first).bounds
  bounds : segment.bounded = true → ∃ counter ∈ segment.counters, (roleOf probeMap counter).bounds
  unlinked : segment.bounded = false → segment.suspendIds = []

def FateSound (segment : Segment) : Fate → Prop
  | .intact => segment.origin = .begun ∧ segment.suspendIds = []
  | .compromised => segment.bounded = false
  | .linked => segment.isLinked = true ∧ segment.origin ≠ .headless

structure Outline.Sound (outline : Outline) : Prop where
  closed : ∀ entry ∈ outline.closed, entry.1.Sound probeMap ∧ FateSound entry.1 entry.2
  current : ∀ segment, outline.current = some segment →
    segment.Sound probeMap ∧ segment.origin ≠ .headless

namespace Outline

variable {probeMap}

variable (probeMap) in
theorem Sound.fresh (loose : List Counter) : (fresh loose).Sound probeMap :=
  ⟨by simp [Outline.fresh], by simp [Outline.fresh]⟩

theorem fateSound_fate {segment : Segment} (started : segment.origin ≠ .headless) :
    FateSound segment segment.fate := by
  cases linked : segment.isLinked with
  | true =>
      simp only [Segment.fate, linked, ↓reduceIte]
      exact ⟨linked, started⟩
  | false =>
      simp only [Segment.fate, linked, Bool.false_eq_true, ↓reduceIte]
      cases origin : segment.origin with
      | begun =>
          refine ⟨origin, ?_⟩
          simpa [Segment.isLinked, origin] using linked
      | resumed linkId => simp [Segment.isLinked, origin] at linked
      | headless => exact absurd origin started

theorem Sound.close {outline : Outline} {segment : Segment} {fate : Fate}
    (sound : outline.Sound probeMap) (segmentSound : segment.Sound probeMap)
    (fateSound : FateSound segment fate) : (outline.close segment fate).Sound probeMap := by
  constructor
  · intro entry member
    rcases List.mem_append.mp member with old | new
    · exact sound.closed entry old
    · rw [List.mem_singleton.mp new]
      exact ⟨segmentSound, fateSound⟩
  · simp [Outline.close]

theorem Sound.openSegment {outline : Outline} {segment : Segment} (sound : outline.Sound probeMap)
    (segmentSound : segment.Sound probeMap) (started : segment.origin ≠ .headless) :
    (outline.openSegment segment).Sound probeMap := by
  refine ⟨sound.closed, ?_⟩
  intro other found
  simp only [Outline.openSegment, Option.some.injEq] at found
  subst found
  exact ⟨segmentSound, started⟩

theorem sound_start_begun {counter : Counter} (begins : roleOf probeMap counter = .begins) :
    (Segment.start .begun counter).Sound probeMap :=
  ⟨⟨counter, [], rfl, begins⟩, by simp [Segment.start], fun _ => rfl⟩

theorem sound_start_resumed {counter : Counter} (resumes : roleOf probeMap counter = .resumes) :
    (Segment.start (.resumed counter.data) counter).Sound probeMap :=
  ⟨⟨counter, [], rfl, resumes, rfl⟩, by simp [Segment.start], fun _ => rfl⟩

theorem sound_add {segment : Segment} (sound : segment.Sound probeMap) (counter : Counter) :
    (segment.add counter).Sound probeMap := by
  obtain ⟨⟨first, rest, counters, opened⟩, bounds, unlinked⟩ := sound
  refine ⟨⟨first, rest ++ [counter], by simp [Segment.add, counters], opened⟩, ?_, unlinked⟩
  intro bounded
  obtain ⟨other, member, otherBounds⟩ := bounds bounded
  exact ⟨other, by simp [Segment.add, member], otherBounds⟩

theorem sound_bound {segment : Segment} (sound : segment.Sound probeMap) (loose : List Counter)
    (counter : Counter) (counterBounds : (roleOf probeMap counter).bounds) :
    (segment.bound loose counter).Sound probeMap := by
  obtain ⟨⟨first, rest, counters, opened⟩, _, _⟩ := sound
  refine ⟨⟨first, rest ++ loose ++ [counter], by simp [Segment.bound, counters], opened⟩, ?_, ?_⟩
  · exact fun _ => ⟨counter, by simp [Segment.bound], counterBounds⟩
  · simp [Segment.bound]

theorem sound_suspendAt {segment : Segment} (sound : segment.Sound probeMap)
    (bounded : segment.bounded = true) (linkId : Str) :
    (segment.suspendAt linkId).Sound probeMap :=
  ⟨sound.opened, sound.bounds, by simp [Segment.suspendAt, bounded]⟩

theorem sound_headless (loose : List Counter) (counter : Counter)
    (counterBounds : (roleOf probeMap counter).bounds) :
    (⟨.headless, counter :: loose, false, []⟩ : Segment).Sound probeMap :=
  ⟨⟨counter, loose, rfl, counterBounds⟩, by simp, fun _ => rfl⟩

theorem Sound.withCurrent {outline : Outline} {segment : Segment} (sound : outline.Sound probeMap)
    (segmentSound : segment.Sound probeMap) (started : segment.origin ≠ .headless)
    (loose : List Counter) :
    ({ outline with current := some segment, loose := loose } : Outline).Sound probeMap := by
  refine ⟨sound.closed, ?_⟩
  intro other found
  simp only [Option.some.injEq] at found
  subst found
  exact ⟨segmentSound, started⟩

theorem Sound.loadCounter {outline : Outline} (sound : outline.Sound probeMap) (tlsAddr : Str)
    (counter : Counter) :
    (outline.loadCounter tlsAddr (roleOf probeMap counter) counter).Sound probeMap := by
  cases isOpen : outline.current with
  | some segment =>
      obtain ⟨segmentSound, started⟩ := sound.current segment isOpen
      have closed := sound.close segmentSound (fateSound_fate started)
      cases role : roleOf probeMap counter with
      | resumes =>
          simp only [Outline.loadCounter, isOpen]
          exact closed.openSegment (sound_start_resumed role) (by simp [Segment.start])
      | begins =>
          simp only [Outline.loadCounter, isOpen]
          split
          · exact closed.openSegment (sound_start_begun role) (by simp [Segment.start])
          · exact sound.withCurrent (sound_add segmentSound counter) started _
      | suspends =>
          simp only [Outline.loadCounter, isOpen]
          have bound := sound_bound segmentSound outline.loose counter (.inl role)
          exact sound.withCurrent (sound_suspendAt bound rfl _) started _
      | ends =>
          simp only [Outline.loadCounter, isOpen]
          exact sound.withCurrent (sound_bound segmentSound _ _ (.inr role)) started _
      | plain =>
          simp only [Outline.loadCounter, isOpen]
          split
          · exact sound.withCurrent segmentSound started _
          · exact sound.withCurrent (sound_add segmentSound counter) started _
  | none =>
      cases role : roleOf probeMap counter with
      | resumes =>
          simp only [Outline.loadCounter, isOpen]
          exact sound.openSegment (sound_start_resumed role) (by simp [Segment.start])
      | begins =>
          simp only [Outline.loadCounter, isOpen]
          exact sound.openSegment (sound_start_begun role) (by simp [Segment.start])
      | suspends =>
          simp only [Outline.loadCounter, isOpen]
          have closed := sound.close (sound_headless outline.loose counter (.inl role))
            (show FateSound _ .compromised from rfl)
          exact ⟨closed.closed, closed.current⟩
      | ends =>
          simp only [Outline.loadCounter, isOpen]
          have closed := sound.close (sound_headless outline.loose counter (.inr role))
            (show FateSound _ .compromised from rfl)
          exact ⟨closed.closed, closed.current⟩
      | plain =>
          simp only [Outline.loadCounter, isOpen]
          exact ⟨sound.closed, by simp⟩

theorem Sound.loadCounters {outline : Outline} (sound : outline.Sound probeMap) (tlsAddr : Str)
    (counters : List Counter) : (outline.loadCounters probeMap tlsAddr counters).Sound probeMap := by
  induction counters generalizing outline with
  | nil => exact sound
  | cons counter rest ih => exact ih (sound.loadCounter tlsAddr counter)

theorem Sound.endLoad {outline : Outline} (sound : outline.Sound probeMap) :
    outline.endLoad.Sound probeMap := by
  simp only [Outline.endLoad]
  split
  · rename_i segment isOpen
    obtain ⟨segmentSound, started⟩ := sound.current segment isOpen
    simp only [Segment.finalFate]
    split
    · exact sound.close segmentSound (fateSound_fate started)
    · rename_i unbounded
      exact sound.close segmentSound (by simpa [FateSound] using unbounded)
  · exact sound

theorem Sound.loadThreads {outline : Outline} (sound : outline.Sound probeMap)
    (threads : List Thread) : (outline.loadThreads probeMap threads).Sound probeMap := by
  induction threads generalizing outline with
  | nil => exact sound
  | cons thread rest ih =>
      exact ih (sound.loadCounters thread.tlsAddr thread.counters).endLoad

def OpenBegun (outline : Outline) : Prop :=
  ∃ segment, outline.current = some segment ∧ segment.origin = .begun ∧ segment.bounded = false

def OpenResumed (outline : Outline) : Prop :=
  ∃ segment, outline.current = some segment ∧ segment.origin ≠ .begun ∧ segment.bounded = false

theorem loadCounters_snoc (outline : Outline) (tlsAddr : Str) (counters : List Counter)
    (counter : Counter) :
    outline.loadCounters probeMap tlsAddr (counters ++ [counter]) =
      (outline.loadCounters probeMap tlsAddr counters).loadCounter tlsAddr
        (roleOf probeMap counter) counter := by
  simp [Outline.loadCounters, roleOf]

theorem loadCounter_begins (outline : Outline) (tlsAddr : Str) (counter : Counter) :
    ((outline.loadCounter tlsAddr .begins counter).OpenBegun ↔ ¬outline.OpenResumed) ∧
      ((outline.loadCounter tlsAddr .begins counter).OpenResumed ↔ outline.OpenResumed) := by
  cases isOpen : outline.current with
  | none => simp [loadCounter, isOpen, OpenBegun, OpenResumed, openSegment, Segment.start]
  | some segment =>
      cases bounded : segment.bounded <;>
        simp [loadCounter, isOpen, OpenBegun, OpenResumed, openSegment, Segment.start, bounded,
          Segment.add]

theorem loadCounter_plain (outline : Outline) (tlsAddr : Str) (counter : Counter) :
    ((outline.loadCounter tlsAddr .plain counter).OpenBegun ↔ outline.OpenBegun) ∧
      ((outline.loadCounter tlsAddr .plain counter).OpenResumed ↔ outline.OpenResumed) := by
  cases isOpen : outline.current with
  | none => simp [loadCounter, isOpen, OpenBegun, OpenResumed]
  | some segment =>
      cases bounded : segment.bounded <;>
        simp [loadCounter, isOpen, OpenBegun, OpenResumed, bounded, Segment.add]

theorem loadCounter_resumes (outline : Outline) (tlsAddr : Str) (counter : Counter) :
    ¬(outline.loadCounter tlsAddr .resumes counter).OpenBegun ∧
      (outline.loadCounter tlsAddr .resumes counter).OpenResumed := by
  cases isOpen : outline.current <;>
    simp [loadCounter, isOpen, OpenBegun, OpenResumed, openSegment, Segment.start]

theorem loadCounter_bounds (outline : Outline) (tlsAddr : Str) (counter : Counter) (role : Role)
    (bounds : role.bounds) :
    ¬(outline.loadCounter tlsAddr role counter).OpenBegun ∧
      ¬(outline.loadCounter tlsAddr role counter).OpenResumed := by
  rcases bounds with rfl | rfl <;> cases isOpen : outline.current <;>
    simp [loadCounter, isOpen, OpenBegun, OpenResumed, close, Segment.bound, Segment.suspendAt]

variable (probeMap) in
theorem open_iff (loose : List Counter) (tlsAddr : Str) (counters : List Counter) :
    (((fresh loose).loadCounters probeMap tlsAddr counters).OpenBegun ↔
        OpensBegun (counters.map (roleOf probeMap))) ∧
      (((fresh loose).loadCounters probeMap tlsAddr counters).OpenResumed ↔
        OpensResumed (counters.map (roleOf probeMap))) := by
  induction counters using List.reverseRecOn with
  | nil =>
      constructor
      · simp [loadCounters, Outline.fresh, OpenBegun, OpensBegun, Settled]
      · simp [loadCounters, Outline.fresh, OpenResumed, OpensResumed]
  | append_singleton counters counter ih =>
      obtain ⟨begun, resumed⟩ := ih
      rw [loadCounters_snoc, List.map_append, List.map_singleton]
      cases role : roleOf probeMap counter with
      | resumes =>
          have step := loadCounter_resumes ((fresh loose).loadCounters probeMap tlsAddr counters)
            tlsAddr counter
          exact ⟨iff_of_false step.1 (not_opensBegun_snoc (by simp [Role.continues]) _),
            iff_of_true step.2 (opensResumed_snoc_resumes _)⟩
      | begins =>
          have step := loadCounter_begins ((fresh loose).loadCounters probeMap tlsAddr counters)
            tlsAddr counter
          rw [step.1, step.2, resumed, opensBegun_snoc_begins,
            opensResumed_snoc_continues (.inl rfl)]
          exact ⟨Iff.rfl, Iff.rfl⟩
      | suspends =>
          have step := loadCounter_bounds ((fresh loose).loadCounters probeMap tlsAddr counters)
            tlsAddr counter .suspends (.inl rfl)
          exact ⟨iff_of_false step.1 (not_opensBegun_snoc (by simp [Role.continues]) _),
            iff_of_false step.2 (not_opensResumed_snoc (.inl rfl) _)⟩
      | ends =>
          have step := loadCounter_bounds ((fresh loose).loadCounters probeMap tlsAddr counters)
            tlsAddr counter .ends (.inr rfl)
          exact ⟨iff_of_false step.1 (not_opensBegun_snoc (by simp [Role.continues]) _),
            iff_of_false step.2 (not_opensResumed_snoc (.inr rfl) _)⟩
      | plain =>
          have step := loadCounter_plain ((fresh loose).loadCounters probeMap tlsAddr counters)
            tlsAddr counter
          rw [step.1, step.2, begun, resumed, opensBegun_snoc_plain,
            opensResumed_snoc_continues (.inr rfl)]
          exact ⟨Iff.rfl, Iff.rfl⟩

end Outline

end Xpedite.Txn
