import Xpedite.Framework.EventSelect
import Xpedite.Framework.RecorderState
import Xpedite.Lib.Fallible
import Xpedite.Perf.PerfEvents
import Xpedite.Profiler.PmuWire

/-!
Which counter a column of the report is.  The profiler names the columns by the requests of
its event set, and the target stores the values in the order of its counters.
-/

namespace Xpedite.Profiler

open Lib Framework

section Resolving

def FlaggedFixed (request : PmuRequest) : Prop :=
  match request with
  | .fixed request => request.user = true ∨ request.kernel = true
  | _ => True

structure Built (eventSet : EventSet) : Prop where
  genericFew : eventSet.genericRequests.length ≤ 8
  fixedFew : eventSet.fixedRequests.length ≤ 3
  offcoreFew : eventSet.offcoreRequests.length ≤ 2
  sorted : eventSet.fixedRequests.Pairwise fun first second => first.ctrIndex ≤ second.ctrIndex
  flagged : ∀ request ∈ eventSet.fixedRequests, request.user = true ∨ request.kernel = true

theorem built_new (cpuSet : List Nat) : Built (EventSet.new cpuSet) :=
  ⟨Nat.zero_le 8, Nat.zero_le 3, Nat.zero_le 2, List.Pairwise.nil, fun _ listed => by cases listed⟩

theorem Built.add {eventSet next : EventSet} {request : PmuRequest} (built : Built eventSet)
    (flagged : FlaggedFixed request) (added : eventSet.add request = .ok next) : Built next := by
  cases request with
  | generic request =>
      rw [EventSet.add, EventSet.addGenericPmuRequest] at added
      split at added
      · cases added
      · cases added
        refine ⟨?_, built.fixedFew, built.offcoreFew, built.sorted, built.flagged⟩
        simp only [List.length_append, List.length_singleton]
        omega
  | offcore request =>
      rw [EventSet.add, EventSet.addOffcorePmuRequest] at added
      split at added
      · cases added
      · cases added
        refine ⟨built.genericFew, built.fixedFew, ?_, built.sorted, built.flagged⟩
        simp only [List.length_append, List.length_singleton]
        omega
  | fixed request =>
      rw [EventSet.add, EventSet.addFixedPmuRequest] at added
      split at added
      · cases added
      · cases added
        refine ⟨built.genericFew, ?_, built.offcoreFew, ?_, ?_⟩
        · simp only [List.length_insertionSort, List.length_append, List.length_singleton]
          omega
        · have total : Std.Total fun first second : FixedPmuRequest =>
              first.ctrIndex ≤ second.ctrIndex := ⟨fun first second => Nat.le_total _ _⟩
          have transitive : IsTrans FixedPmuRequest fun first second =>
              first.ctrIndex ≤ second.ctrIndex := ⟨fun _ _ _ => Nat.le_trans⟩
          exact List.pairwise_insertionSort _ _
        · intro other listed
          rcases List.mem_append.mp ((List.mem_insertionSort _).mp listed) with old | new
          · exact built.flagged other old
          · obtain rfl := List.mem_singleton.mp new
            exact flagged

theorem flagged_buildRequests {eventsDb : EventsDb} {count : Nat} {event : Event}
    {result : Nat × List PmuRequest}
    (resolved : PmuRequestFactory.buildRequests eventsDb count event = .ok result) :
    ∀ request ∈ result.2, FlaggedFixed request := by
  rw [PmuRequestFactory.buildRequests] at resolved
  split at resolved
  · cases resolved
  · obtain ⟨request, -, done⟩ := bind_eq_ok resolved
    cases done
    intro other listed
    obtain rfl := List.mem_singleton.mp listed
    trivial
  · obtain ⟨request, created, done⟩ := bind_eq_ok resolved
    cases done
    intro other listed
    obtain rfl := List.mem_singleton.mp listed
    rw [FixedPmuRequest.new] at created
    split at created
    · cases created
    · rename_i allowed
      cases created
      simpa [FlaggedFixed, Decidable.or_iff_not_imp_left] using allowed
  · rw [PmuRequestFactory.buildOffCoreRequests] at resolved
    split at resolved
    · cases resolved
    · obtain ⟨generic, -, more⟩ := bind_eq_ok resolved
      obtain ⟨offcore, -, done⟩ := bind_eq_ok more
      cases done
      intro other listed
      rcases List.mem_cons.mp listed with rfl | last
      · trivial
      · obtain rfl := List.mem_singleton.mp last
        trivial
  · cases resolved

theorem built_resolveEvents {eventsDb : EventsDb} {cpuSet : List Nat} {events : List Event}
    {eventSet : EventSet} (resolved : PMUCtrl.resolveEvents eventsDb cpuSet events = .ok eventSet) :
    Built eventSet := by
  rw [PMUCtrl.resolveEvents] at resolved
  split at resolved
  · cases resolved
  · cases folded : events.foldlM (PMUCtrl.resolveEvent eventsDb) (0, EventSet.new cpuSet) with
    | error cause =>
        rw [folded] at resolved
        cases resolved
    | ok final =>
        rw [folded] at resolved
        cases resolved
        refine @foldlM_keeps _ _ _ (PMUCtrl.resolveEvent eventsDb) (fun state => Built state.2)
          (fun _ => True) ?_ events _ final (built_new cpuSet) (fun _ _ => trivial) folded
        intro state event next built _ taken
        obtain ⟨⟨count, requests⟩, resolved, more⟩ := bind_eq_ok taken
        obtain ⟨eventSet, added, done⟩ := bind_eq_ok more
        cases done
        exact foldlM_keeps (fun _ _ _ holds fine step => holds.add fine step) built
          (flagged_buildRequests resolved) added

theorem allocateEvents_cases {eventSet next : EventSet}
    (allocated : PMUCtrl.allocateEvents eventSet = .ok next) :
    next = eventSet ∨ ∃ sortedRequests : List GenericPmuRequest,
      sortedRequests.length = eventSet.genericRequests.length ∧
        next = { eventSet with genericRequests := sortedRequests } := by
  rw [PMUCtrl.allocateEvents] at allocated
  split at allocated
  · cases allocated
    exact .inl rfl
  · obtain ⟨sorted, -, placed⟩ := bind_eq_ok allocated
    split at placed
    · cases placed
    · split at placed
      · rename_i sortedRequests _ same
        cases placed
        exact .inr ⟨sortedRequests, same, rfl⟩
      · cases placed

theorem built_buildEventSet {eventsDb : EventsDb} {cpuSet : List Nat} {events : List Event}
    {eventSet : EventSet} (accepted : PMUCtrl.buildEventSet eventsDb cpuSet events = .ok eventSet) :
    Built eventSet := by
  obtain ⟨resolved, done, allocated⟩ := bind_eq_ok accepted
  have built := built_resolveEvents done
  obtain same | ⟨sortedRequests, length, same⟩ := allocateEvents_cases allocated
  · exact same ▸ built
  · rw [same]
    exact ⟨length ▸ built.genericFew, built.fixedFew, built.offcoreFew, built.sorted,
      built.flagged⟩

def fixedIndices (eventsDb : EventsDb) (events : List Event) : List Nat :=
  events.filterMap fun event =>
    match eventsDb event.uarchName with
    | some (.fixedCore _ validPmc) => some validPmc
    | _ => none

structure Resolved (eventsDb : EventsDb) (events : List Event) (eventSet : EventSet) : Prop where
  fixed : (eventSet.fixedRequests.map FixedPmuRequest.ctrIndex).Perm (fixedIndices eventsDb events)
  each : eventSet.requests.length = events.length

theorem length_requests (eventSet : EventSet) :
    eventSet.requests.length =
      eventSet.genericRequests.length + eventSet.fixedRequests.length := by
  rw [EventSet.requests, List.length_append, List.length_map, List.length_map]

theorem fixedIndices_append (eventsDb : EventsDb) (events others : List Event) :
    fixedIndices eventsDb (events ++ others) =
      fixedIndices eventsDb events ++ fixedIndices eventsDb others := List.filterMap_append

theorem addGeneric_cases {eventSet next : EventSet} {request : GenericPmuRequest}
    (added : eventSet.addGenericPmuRequest request = .ok next) :
    next = { eventSet with genericRequests := eventSet.genericRequests ++ [request] } := by
  rw [EventSet.addGenericPmuRequest] at added
  split at added
  · cases added
  · cases added
    rfl

theorem addFixed_perm {eventSet next : EventSet} {request : FixedPmuRequest}
    (added : eventSet.addFixedPmuRequest request = .ok next) :
    next.genericRequests = eventSet.genericRequests ∧
      next.fixedRequests.Perm (eventSet.fixedRequests ++ [request]) := by
  rw [EventSet.addFixedPmuRequest] at added
  split at added
  · cases added
  · cases added
    exact ⟨rfl, List.perm_insertionSort _ _⟩

theorem addOffcore_cases {eventSet next : EventSet} {request : OffcorePmuRequest}
    (added : eventSet.addOffcorePmuRequest request = .ok next) :
    next = { eventSet with offcoreRequests := eventSet.offcoreRequests ++ [request] } := by
  rw [EventSet.addOffcorePmuRequest] at added
  split at added
  · cases added
  · cases added
    rfl

theorem Resolved.generic {eventsDb : EventsDb} {events : List Event} {event : Event}
    {eventSet next : EventSet} (resolved : Resolved eventsDb events eventSet)
    (fixed : next.fixedRequests = eventSet.fixedRequests)
    (counted : next.genericRequests.length = eventSet.genericRequests.length + 1)
    (none_ : fixedIndices eventsDb [event] = []) :
    Resolved eventsDb (events ++ [event]) next := by
  refine ⟨?_, ?_⟩
  · rw [fixed, fixedIndices_append, none_, List.append_nil]
    exact resolved.fixed
  · have each := resolved.each
    rw [length_requests] at each
    rw [length_requests, fixed, counted, List.length_append, List.length_singleton]
    omega

theorem Resolved.resolveEvent {eventsDb : EventsDb} {events : List Event} {event : Event}
    {state next : Nat × EventSet} (resolved : Resolved eventsDb events state.2)
    (taken : PMUCtrl.resolveEvent eventsDb state event = .ok next) :
    Resolved eventsDb (events ++ [event]) next.2 := by
  obtain ⟨⟨count, requests⟩, built, more⟩ := bind_eq_ok taken
  obtain ⟨eventSet, added, done⟩ := bind_eq_ok more
  cases done
  rw [PmuRequestFactory.buildRequests] at built
  split at built
  · cases built
  · rename_i uarchEvent known
    obtain ⟨request, -, done⟩ := bind_eq_ok built
    cases done
    obtain ⟨middle, first, done⟩ := bind_eq_ok added
    cases done
    cases addGeneric_cases first
    refine resolved.generic rfl ?_ ?_
    · rw [List.length_append, List.length_singleton]
    · simp [fixedIndices, known]
  · rename_i name validPmc known
    obtain ⟨request, created, done⟩ := bind_eq_ok built
    cases done
    obtain ⟨middle, first, done⟩ := bind_eq_ok added
    cases done
    obtain ⟨generic, permuted⟩ := addFixed_perm first
    have index : request.ctrIndex = validPmc := by
      rw [FixedPmuRequest.new] at created
      split at created
      · cases created
      · cases created
        rfl
    refine ⟨?_, ?_⟩
    · have own : fixedIndices eventsDb [event] = [validPmc] := by simp [fixedIndices, known]
      rw [fixedIndices_append, own]
      refine (permuted.map FixedPmuRequest.ctrIndex).trans ?_
      rw [List.map_append, List.map_singleton, index]
      exact resolved.fixed.append_right [validPmc]
    · have each := resolved.each
      rw [length_requests] at each
      rw [length_requests, generic, permuted.length_eq, List.length_append, List.length_append,
        List.length_singleton, List.length_singleton]
      omega
  · rename_i uarchEvent known
    rw [PmuRequestFactory.buildOffCoreRequests] at built
    split at built
    · cases built
    · obtain ⟨generic, -, more⟩ := bind_eq_ok built
      obtain ⟨offcore, -, done⟩ := bind_eq_ok more
      cases done
      obtain ⟨middle, first, rest⟩ := bind_eq_ok added
      obtain ⟨last, second, done⟩ := bind_eq_ok rest
      cases done
      cases addGeneric_cases first
      cases addOffcore_cases second
      refine resolved.generic rfl ?_ ?_
      · rw [List.length_append, List.length_singleton]
      · simp [fixedIndices, known]
  · cases built

theorem resolved_buildEventSet {eventsDb : EventsDb} {cpuSet : List Nat} {events : List Event}
    {eventSet : EventSet} (accepted : PMUCtrl.buildEventSet eventsDb cpuSet events = .ok eventSet) :
    Resolved eventsDb events eventSet := by
  obtain ⟨collected, done, allocated⟩ := bind_eq_ok accepted
  have resolved : Resolved eventsDb events collected := by
    rw [PMUCtrl.resolveEvents] at done
    split at done
    · cases done
    · cases folded : events.foldlM (PMUCtrl.resolveEvent eventsDb) (0, EventSet.new cpuSet) with
      | error cause =>
          rw [folded] at done
          cases done
      | ok final =>
          rw [folded] at done
          cases done
          have start : Resolved eventsDb [] (EventSet.new cpuSet) := ⟨List.Perm.nil, rfl⟩
          exact @foldlM_grows _ _ _ _ (fun taken state => Resolved eventsDb taken state.2)
            (fun _ _ _ _ resolved stepped => resolved.resolveEvent stepped) [] _ _ _ start folded
  obtain same | ⟨sortedRequests, length, same⟩ := allocateEvents_cases allocated
  · exact same ▸ resolved
  · rw [same]
    refine ⟨resolved.fixed, ?_⟩
    rw [length_requests, length, ← length_requests, resolved.each]

end Resolving

section Registers

def isEnabled (set : FixedPmcSet) : Nat → Bool
  | 0 => set.instRetiredAny
  | 1 => set.cpuClkUnhaltedCore
  | 2 => set.cpuClkUnhaltedRef
  | _ => false

theorem isEnabled_new (index : Nat) : isEnabled FixedPmcSet.new index = false := by
  unfold isEnabled
  split
  · rfl
  · rfl
  · rfl
  · rfl

def fixedCounters (set : FixedPmcSet) : List Nat := [0, 1, 2].filter (isEnabled set)

def registers (pmu : PmuCtl) : List Nat :=
  List.range pmu.genericPmcCount.toNat ++ (fixedCounters pmu.fixedPmcSet).map (0x40000000 + ·)

/--
The operand for the counter of a request.  The kernel module programs generic request `i`
of the list it gets into register `i`.
-/
def counterOf (column : Nat) : PmuRequest → Nat
  | .fixed request => 0x40000000 + request.ctrIndex
  | _ => column

def counters (eventSet : EventSet) : List Nat := eventSet.requests.mapIdx counterOf

theorem pmcValues_eq (pmu : PmuCtl) (rdpmc : Nat → UInt64) :
    pmu.pmcValues rdpmc = (registers pmu).map rdpmc := by
  obtain ⟨generic, ⟨first, second, third⟩, attrs, generation, enabled⟩ := pmu
  cases first <;> cases second <;> cases third <;>
    simp [PmuCtl.pmcValues, registers, fixedCounters, isEnabled]

theorem length_registers (pmu : PmuCtl) : (registers pmu).length = pmu.readCount := by
  have values := congrArg List.length (pmcValues_eq pmu fun _ => 0)
  rw [length_pmcValues, List.length_map] at values
  exact values.symm

theorem counters_eq (eventSet : EventSet) :
    counters eventSet = List.range eventSet.genericRequests.length ++
      (eventSet.fixedRequests.map FixedPmuRequest.ctrIndex).map (0x40000000 + ·) := by
  rw [counters, EventSet.requests, List.mapIdx_append]
  congr 1
  · apply List.ext_getElem
    · simp
    · intro index _ _
      simp [counterOf]
  · apply List.ext_getElem
    · simp
    · intro index _ _
      simp [counterOf]

theorem length_counters (eventSet : EventSet) :
    (counters eventSet).length = eventSet.requests.length := List.length_mapIdx

theorem eq_of_forall_map_eq {first second : List Nat}
    (same : ∀ rdpmc : Nat → UInt64, first.map rdpmc = second.map rdpmc) : first = second := by
  have length : first.length = second.length := by
    simpa using congrArg List.length (same fun _ => 0)
  apply List.ext_getElem length
  intro index inFirst inSecond
  have element := congrArg (fun values => values[index]?) (same fun operand =>
    if operand = second[index] then 1 else 0)
  simpa [inFirst, inSecond] using element

theorem filter_generic (generic : Nat) (fixed : List Nat) (few : generic ≤ 255) :
    (List.range generic ++ fixed.map (0x40000000 + ·)).filter (· < 0x40000000) =
      List.range generic := by
  rw [List.filter_append]
  have low : (List.range generic).filter (· < 0x40000000) = List.range generic := by
    apply List.filter_eq_self.mpr
    intro index listed
    have below := List.mem_range.mp listed
    simp only [decide_eq_true_eq]
    omega
  have high : (fixed.map (0x40000000 + ·)).filter (· < 0x40000000) = [] := by
    apply List.filter_eq_nil_iff.mpr
    intro operand listed
    obtain ⟨index, -, rfl⟩ := List.mem_map.mp listed
    simp
  rw [low, high, List.append_nil]

theorem operands_eq_iff {generic others : Nat} {fixed otherFixed : List Nat}
    (few : generic ≤ 255) (otherFew : others ≤ 255) :
    List.range generic ++ fixed.map (0x40000000 + ·) =
        List.range others ++ otherFixed.map (0x40000000 + ·) ↔
      generic = others ∧ fixed = otherFixed := by
  constructor
  · intro same
    have low := congrArg (List.filter (· < 0x40000000)) same
    rw [filter_generic generic fixed few, filter_generic others otherFixed otherFew] at low
    have length : generic = others := by simpa using congrArg List.length low
    subst length
    refine ⟨rfl, ?_⟩
    have injective : Function.Injective (0x40000000 + · : Nat → Nat) :=
      fun _ _ equal => Nat.add_left_cancel equal
    exact List.map_injective_iff.mpr injective (List.append_cancel_left same)
  · rintro ⟨rfl, rfl⟩
    rfl

theorem mem_fixedCounters {set : FixedPmcSet} {index : Nat} :
    index ∈ fixedCounters set ↔ index < 3 ∧ isEnabled set index = true := by
  rw [fixedCounters, List.mem_filter]
  have three : index ∈ [0, 1, 2] ↔ index < 3 := by
    simp only [List.mem_cons, List.not_mem_nil, or_false]
    omega
  rw [three]

theorem isEnabled_withIndices (set : FixedPmcSet) (indices : List UInt8) {index : Nat}
    (small : index < 3) :
    isEnabled (set.withIndices indices) index =
      (isEnabled set index || indices.contains (UInt8.ofNat index)) := by
  match index, small with
  | 0, _ => rfl
  | 1, _ => rfl
  | 2, _ => rfl

theorem fixedCounters_sorted (set : FixedPmcSet) : (fixedCounters set).Pairwise (· < ·) :=
  List.Pairwise.sublist List.filter_sublist (by decide)

theorem contains_ofNat {indices : List Nat} {index : Nat}
    (fit : ∀ other ∈ indices, other < 2 ^ 8) (small : index < 3) :
    (indices.map UInt8.ofNat).contains (UInt8.ofNat index) = true ↔ index ∈ indices := by
  rw [List.contains_iff_mem, List.mem_map]
  constructor
  · rintro ⟨other, listed, same⟩
    have values := congrArg UInt8.toNat same
    rw [toNat_ofNat_of_lt (fit other listed), toNat_ofNat_of_lt (by omega)] at values
    exact values ▸ listed
  · intro listed
    exact ⟨index, listed, rfl⟩

/-- Enabling the listed counters enables them and no others, each of them once. -/
theorem fixedCounters_eq_iff {set : FixedPmcSet} {indices : List Nat}
    (sorted : indices.Pairwise (· ≤ ·)) :
    fixedCounters (set.withIndices (indices.map UInt8.ofNat)) = indices ↔
      indices.Nodup ∧ (∀ index ∈ indices, index < 3) ∧
        ∀ index < 3, isEnabled set index = true → index ∈ indices := by
  constructor
  · intro same
    have strict := fixedCounters_sorted (set.withIndices (indices.map UInt8.ofNat))
    rw [same] at strict
    refine ⟨strict.imp (fun less => Nat.ne_of_lt less), ?_, ?_⟩
    · intro index listed
      rw [← same] at listed
      exact (mem_fixedCounters.mp listed).1
    · intro index small enabled
      rw [← same]
      refine mem_fixedCounters.mpr ⟨small, ?_⟩
      rw [isEnabled_withIndices _ _ small, enabled, Bool.true_or]
  · rintro ⟨distinct, small, known⟩
    have fit : ∀ other ∈ indices, other < 2 ^ 8 :=
      fun other listed => Nat.lt_trans (small other listed) (by decide)
    have strict := fixedCounters_sorted (set.withIndices (indices.map UInt8.ofNat))
    have permuted : (fixedCounters (set.withIndices (indices.map UInt8.ofNat))).Perm indices := by
      refine (List.perm_ext_iff_of_nodup (strict.imp fun less => Nat.ne_of_lt less) distinct).mpr ?_
      intro index
      rw [mem_fixedCounters]
      constructor
      · rintro ⟨below, enabled⟩
        rw [isEnabled_withIndices _ _ below, Bool.or_eq_true, contains_ofNat fit below] at enabled
        exact enabled.elim (known index below) id
      · intro listed
        have below := small index listed
        refine ⟨below, ?_⟩
        rw [isEnabled_withIndices _ _ below, (contains_ofNat fit below).mpr listed, Bool.or_true]
    refine permuted.eq_of_pairwise ?_ (strict.imp fun less => Nat.le_of_lt less) sorted
    intro first second _ _ below above
    exact Nat.le_antisymm below above

end Registers

section KernelModule

/-- `ActivatePmu`, as `ProbeAdmin.enablePMU` sends it. -/
def activatePmu (eventSet : EventSet) : Request :=
  .pmuActivation eventSet.genericRequests.length
    (eventSet.fixedRequests.map fun request => (request.ctrIndex : Int))

/-- The samples with the counters of the processor have the columns of the event set. -/
structure PmcColumns (control : Control) (eventSet : EventSet) : Prop where
  recorder : control.recorder.activeRecorderType = .pmc
  count : control.pmu.pmcCount.toNat = eventSet.requests.length
  stored : ∀ rdpmc, (control.pmu.pmcValues rdpmc).length = eventSet.requests.length
  labelled : ∀ rdpmc column request, eventSet.requests[column]? = some request →
    (control.pmu.pmcValues rdpmc)[column]? = some (rdpmc (counterOf column request))

/-- No fixed counter is asked for twice, and no other counter is on. -/
structure CountersOwn (control : Control) (eventSet : EventSet) : Prop where
  distinct : (eventSet.fixedRequests.map FixedPmuRequest.ctrIndex).Nodup
  small : ∀ request ∈ eventSet.fixedRequests, request.ctrIndex < 3
  recorder : control.pmu.pmcCount = 0 ∨ control.recorder.activeRecorderType = .pmc
  generic : eventSet.genericRequests = [] → control.pmu.genericPmcCount = 0
  fixed : ∀ index < 3, isEnabled control.pmu.fixedPmcSet index = true →
    index ∈ eventSet.fixedRequests.map FixedPmuRequest.ctrIndex

theorem registers_eq_iff (pmu : PmuCtl) (eventSet : EventSet) :
    ((∀ rdpmc, (pmu.pmcValues rdpmc).length = eventSet.requests.length) ∧
      ∀ rdpmc column request, eventSet.requests[column]? = some request →
        (pmu.pmcValues rdpmc)[column]? = some (rdpmc (counterOf column request))) ↔
    registers pmu = counters eventSet := by
  constructor
  · rintro ⟨stored, labelled⟩
    apply eq_of_forall_map_eq
    intro rdpmc
    rw [← pmcValues_eq]
    apply List.ext_getElem?
    intro column
    rw [counters, List.getElem?_map, List.getElem?_mapIdx]
    cases listed : eventSet.requests[column]? with
    | some request =>
        rw [labelled rdpmc column request listed]
        rfl
    | none =>
        have beyond := List.getElem?_eq_none_iff.mp listed
        rw [← stored rdpmc] at beyond
        rw [List.getElem?_eq_none beyond]
        rfl
  · intro same
    refine ⟨?_, ?_⟩
    · intro rdpmc
      rw [pmcValues_eq, List.length_map, same, length_counters]
    · intro rdpmc column request listed
      rw [pmcValues_eq, same, counters, List.getElem?_map, List.getElem?_mapIdx, listed]
      rfl

theorem ofInt_natCast (value : Nat) : UInt8.ofInt (value : Int) = UInt8.ofNat value := by
  apply UInt8.toNat_inj.mp
  rw [UInt8.ofInt, UInt8.toNat_ofNat', UInt8.toNat_ofNat']
  omega

theorem map_ofInt (eventSet : EventSet) :
    (eventSet.fixedRequests.map fun request => (request.ctrIndex : Int)).map UInt8.ofInt =
      (eventSet.fixedRequests.map FixedPmuRequest.ctrIndex).map UInt8.ofNat := by
  rw [List.map_map, List.map_map]
  apply List.map_congr_left
  intro request _
  exact ofInt_natCast _

theorem toNat_genericCount {eventSet : EventSet} (built : Built eventSet) :
    (UInt8.ofInt eventSet.genericRequests.length).toNat = eventSet.genericRequests.length := by
  have few := built.genericFew
  rw [ofInt_natCast, toNat_ofNat_of_lt (by omega)]

theorem genericCount_ne_zero {eventSet : EventSet} (built : Built eventSet)
    (some_ : eventSet.genericRequests ≠ []) :
    UInt8.ofInt eventSet.genericRequests.length ≠ 0 := by
  intro zero
  have count := toNat_genericCount built
  have positive := List.length_pos_iff.mpr some_
  rw [zero] at count
  have zero' : (0 : UInt8).toNat = 0 := rfl
  omega

theorem activatePmu_pmu {environment : Environment} {state next : State} {response : Response}
    {eventSet : EventSet} (built : Built eventSet)
    (executed : execute environment state (activatePmu eventSet) = .returns next response) :
    next.control.pmu.fixedPmcSet = state.control.pmu.fixedPmcSet.withIndices
        ((eventSet.fixedRequests.map FixedPmuRequest.ctrIndex).map UInt8.ofNat) ∧
      next.control.pmu.genericPmcCount.toNat =
        if eventSet.genericRequests = [] then state.control.pmu.genericPmcCount.toNat
        else eventSet.genericRequests.length := by
  rw [activatePmu, execute] at executed
  split at executed
  · cases executed
  · rename_i reached enabled
    cases executed
    rw [enableFixedPMU_pmu enabled, map_ofInt, Handler.enableGpPMU]
    refine ⟨by simp only [Control.enableGenericPmc_pmu], ?_⟩
    simp only [Control.enableGenericPmc_pmu, Control.genericAfter]
    by_cases none_ : eventSet.genericRequests = []
    · have zero : UInt8.ofInt eventSet.genericRequests.length = 0 := by
        rw [none_]
        rfl
      rw [if_pos zero, if_pos none_]
    · rw [if_neg (genericCount_ne_zero built none_), if_neg none_, toNat_genericCount built]

theorem pmcCount_eq_zero {pmu : PmuCtl} (small : pmu.readCount < 256) :
    pmu.pmcCount = 0 ↔ pmu.readCount = 0 := by
  rw [← UInt8.toNat_inj, toNat_pmcCount, Nat.mod_eq_of_lt small]
  rfl

theorem size_le_withIndices (set : FixedPmcSet) (indices : List UInt8) :
    set.size ≤ (set.withIndices indices).size := by
  have grows : ∀ first second : Bool, first.toNat ≤ (first || second).toNat := by decide
  have first := grows set.instRetiredAny (indices.contains 0)
  have second := grows set.cpuClkUnhaltedCore (indices.contains 1)
  have third := grows set.cpuClkUnhaltedRef (indices.contains 2)
  rw [FixedPmcSet.size, FixedPmcSet.size, FixedPmcSet.withIndices]
  dsimp only
  omega

/-- The recorder is chosen when the first counter is enabled, if the count does not wrap. -/
theorem enableFixedPMU_recorder {indices : List Int} {state next : State}
    (enabled : indices.foldlM Handler.enableFixedPMU state = some next)
    (small : next.control.pmu.readCount < 256) :
    next.control.recorder =
      if indices ≠ [] ∧ state.control.pmu.readCount = 0 then activateRecorder .pmc
      else state.control.recorder := by
  induction indices generalizing state with
  | nil =>
      cases enabled
      simp
  | cons index indices ih =>
      rw [List.foldlM_cons] at enabled
      obtain ⟨middle, first, rest⟩ := Option.bind_eq_some_iff.mp enabled
      have pmu := enableFixedPMU_pmu rest
      obtain ⟨control, accepted, rfl⟩ := Option.map_eq_some_iff.mp first
      obtain ⟨recorder, generic, fixed, positive⟩ := enableFixedPmc_cases accepted
      have grown := size_le_withIndices control.pmu.fixedPmcSet (indices.map UInt8.ofInt)
      have before := size_le_withIndices state.control.pmu.fixedPmcSet [UInt8.ofInt index]
      rw [← fixed] at before
      have read : next.control.pmu.readCount = control.pmu.genericPmcCount.toNat +
          (control.pmu.fixedPmcSet.withIndices (indices.map UInt8.ofInt)).size := by
        rw [pmu, PmuCtl.readCount]
      have started : state.control.pmu.readCount < 256 := by
        rw [PmuCtl.readCount, ← generic]
        omega
      have counting : control.pmu.readCount ≠ 0 := by
        rw [PmuCtl.readCount]
        omega
      rw [ih rest, if_neg (fun both => counting both.2)]
      simp only [recorder, pmcCount_eq_zero started, ne_eq, List.cons_ne_nil, not_false_eq_true,
        true_and]

theorem activatePmu_recorder {environment : Environment} {state next : State}
    {response : Response} {eventSet : EventSet} (built : Built eventSet)
    (requested : eventSet.requests ≠ [])
    (executed : execute environment state (activatePmu eventSet) = .returns next response)
    (generic : next.control.pmu.genericPmcCount.toNat = eventSet.genericRequests.length) :
    next.control.recorder =
      if state.control.pmu.pmcCount = 0 then activateRecorder .pmc else state.control.recorder := by
  have few := built.genericFew
  have fixedFew := next.control.pmu.fixedPmcSet.size_le
  have small : next.control.pmu.readCount < 256 := by
    rw [PmuCtl.readCount]
    omega
  have counts := (activatePmu_pmu built executed).2
  rw [activatePmu, execute] at executed
  split at executed
  · cases executed
  · rename_i reached enabled
    cases executed
    rw [enableFixedPMU_recorder enabled small, Handler.enableGpPMU]
    by_cases none_ : eventSet.genericRequests = []
    · -- the first fixed counter decides
      rw [if_pos none_, generic, none_] at counts
      have same : state.control.enableGenericPmc
          (UInt8.ofInt eventSet.genericRequests.length) = state.control := by
        rw [none_]
        rfl
      have fixed : eventSet.fixedRequests ≠ [] := by
        rintro empty
        rw [EventSet.requests, none_, empty] at requested
        exact requested rfl
      have before := state.control.pmu.fixedPmcSet.size_le
      have started : state.control.pmu.readCount < 256 := by
        rw [PmuCtl.readCount, ← counts]
        exact Nat.lt_of_le_of_lt (Nat.add_le_add_left before _) (by decide)
      simp only [same, pmcCount_eq_zero started, ne_eq, List.map_eq_nil_iff, fixed,
        not_false_eq_true, true_and]
    · -- the general purpose counters come first
      rw [if_neg none_] at counts
      have positive := List.length_pos_iff.mpr none_
      have count := toNat_genericCount built
      have nonzero := genericCount_ne_zero built none_
      have counting : (state.control.enableGenericPmc
          (UInt8.ofInt eventSet.genericRequests.length)).pmu.readCount ≠ 0 := by
        rw [Control.enableGenericPmc_pmu, Control.genericAfter, if_neg nonzero, PmuCtl.readCount]
        dsimp only
        omega
      rw [if_neg (fun both => counting both.2), Control.enableGenericPmc, if_neg nonzero]
      exact recorder_activate_if state.control .pmc _

theorem sorted_indices {eventSet : EventSet} (built : Built eventSet) :
    (eventSet.fixedRequests.map FixedPmuRequest.ctrIndex).Pairwise (· ≤ ·) :=
  List.pairwise_map.mpr built.sorted

theorem small_indices (eventSet : EventSet) :
    (∀ index ∈ eventSet.fixedRequests.map FixedPmuRequest.ctrIndex, index < 3) ↔
      ∀ request ∈ eventSet.fixedRequests, request.ctrIndex < 3 := List.forall_mem_map

theorem pmcColumns_iff {environment : Environment} {state next : State} {response : Response}
    {eventSet : EventSet} (built : Built eventSet) (requested : eventSet.requests ≠ [])
    (executed : execute environment state (activatePmu eventSet) = .returns next response) :
    PmcColumns next.control eventSet ↔ CountersOwn state.control eventSet := by
  obtain ⟨fixed, generic⟩ := activatePmu_pmu built executed
  have few := built.genericFew
  have byte := next.control.pmu.genericPmcCount.toNat_lt
  have layout : registers next.control.pmu = counters eventSet ↔
      next.control.pmu.genericPmcCount.toNat = eventSet.genericRequests.length ∧
        fixedCounters next.control.pmu.fixedPmcSet =
          eventSet.fixedRequests.map FixedPmuRequest.ctrIndex := by
    rw [registers, counters_eq]
    exact operands_eq_iff (by omega) (by omega)
  have enabled := @fixedCounters_eq_iff state.control.pmu.fixedPmcSet _ (sorted_indices built)
  rw [← fixed, small_indices] at enabled
  constructor
  · intro columns
    obtain ⟨count, same⟩ := layout.mp
      ((registers_eq_iff _ _).mp ⟨columns.stored, columns.labelled⟩)
    obtain ⟨distinct, small, known⟩ := enabled.mp same
    refine ⟨distinct, small, ?_, ?_, known⟩
    · have recorder := columns.recorder
      rw [activatePmu_recorder built requested executed count] at recorder
      split at recorder
      · rename_i zero
        exact .inl zero
      · exact .inr recorder
    · intro none_
      rw [if_pos none_, count, none_] at generic
      exact UInt8.toNat_inj.mp generic.symm
  · intro own
    have count : next.control.pmu.genericPmcCount.toNat = eventSet.genericRequests.length := by
      by_cases none_ : eventSet.genericRequests = []
      · rw [generic, if_pos none_, own.generic none_, none_]
        rfl
      · rw [generic, if_neg none_]
    have same := layout.mpr ⟨count, enabled.mpr ⟨own.distinct, own.small, own.fixed⟩⟩
    obtain ⟨stored, labelled⟩ := (registers_eq_iff _ _).mpr same
    refine ⟨?_, ?_, stored, labelled⟩
    · rw [activatePmu_recorder built requested executed count]
      split
      · rfl
      · rename_i counting
        exact own.recorder.resolve_left counting
    · have length := length_registers next.control.pmu
      have fixedFew := next.control.pmu.fixedPmcSet.size_le
      have small : next.control.pmu.readCount < 256 := by
        rw [PmuCtl.readCount]
        omega
      rw [toNat_pmcCount, Nat.mod_eq_of_lt small, ← length, same, length_counters]

end KernelModule

section PerfEvents

def attrOf : PmuRequest → PerfEventAttr
  | .generic request =>
      ⟨.raw, request.event.unitMask * 2 ^ 8 + request.event.eventSelect, !request.user,
        !request.kernel⟩
  | .offcore _ => ⟨.raw, 0, false, false⟩
  | .fixed request =>
      match request.ctrIndex with
      | 0 => ⟨.hardware, 1, !request.user, !request.kernel⟩
      | 1 => ⟨.hardware, 0, !request.user, !request.kernel⟩
      | _ => ⟨.raw, 0x13c, !request.user, !request.kernel⟩

/-- The samples of a thread with the published events have the columns of the event set. -/
structure PerfColumns (control : Control) (eventSet : EventSet) : Prop where
  recorder : control.recorder.activeRecorderType = .perfEvents
  count : ∀ perfEventSet : Perf.PerfEventSet PerfEventAttr,
    perfEventSet.events.map Perf.PerfEvent.attr = control.pmu.activeEventAttrs →
      perfEventSet.size = eventSet.requests.length
  labelled : ∀ perfEventSet : Perf.PerfEventSet PerfEventAttr,
    perfEventSet.events.map Perf.PerfEvent.attr = control.pmu.activeEventAttrs →
      ∀ (column : Nat) (request : PmuRequest), eventSet.requests[column]? = some request →
        ∃ event : Perf.PerfEvent PerfEventAttr,
          perfEventSet.events[column]? = some event ∧ event.attr = attrOf request

theorem perfColumns_iff (control : Control) (eventSet : EventSet) :
    PerfColumns control eventSet ↔ control.recorder.activeRecorderType = .perfEvents ∧
      control.pmu.activeEventAttrs = eventSet.requests.map attrOf := by
  constructor
  · intro columns
    refine ⟨columns.recorder, ?_⟩
    let perfEventSet : Perf.PerfEventSet PerfEventAttr :=
      ⟨control.pmu.activeEventAttrs.map fun attr => ⟨attr, 0⟩, 0, true⟩
    have carries : perfEventSet.events.map Perf.PerfEvent.attr = control.pmu.activeEventAttrs := by
      rw [List.map_map]
      exact List.map_id _
    apply List.ext_getElem?
    intro column
    rw [List.getElem?_map]
    cases listed : eventSet.requests[column]? with
    | some request =>
        obtain ⟨event, stored, same⟩ := columns.labelled perfEventSet carries column request listed
        rw [← carries, List.getElem?_map, stored, Option.map_some, same]
        rfl
    | none =>
        have beyond := List.getElem?_eq_none_iff.mp listed
        rw [← columns.count perfEventSet carries, Perf.PerfEventSet.size] at beyond
        rw [← carries, List.getElem?_map, List.getElem?_eq_none beyond]
        rfl
  · rintro ⟨recorder, same⟩
    refine ⟨recorder, ?_, ?_⟩
    · intro perfEventSet carries
      have length := congrArg List.length (carries.trans same)
      simpa [Perf.PerfEventSet.size] using length
    · intro perfEventSet carries column request listed
      have element := congrArg (fun attrs => attrs[column]?) (carries.trans same)
      simp only [List.getElem?_map, listed, Option.map_some] at element
      obtain ⟨event, stored, attr⟩ := Option.map_eq_some_iff.mp element
      exact ⟨event, stored, attr⟩

theorem mapM_packByte {values : List Nat} {bytes : List UInt8}
    (packed : packBytes values = some bytes) : ∀ value ∈ values, value < 2 ^ 8 := by
  have all := (isSome_mapM_iff packByte values).mp (Option.isSome_of_eq_some packed)
  intro value listed
  have packs := all value listed
  rw [packByte] at packs
  by_contra wide
  rw [if_neg wide] at packs
  cases packs

theorem fits_of_buildRequestGroup {cpu : Nat} {eventSet : EventSet} {bytes : List UInt8}
    (built : Built eventSet) (packed : PMUCtrl.buildRequestGroup cpu eventSet = some bytes) :
    Fits cpu eventSet := by
  rw [PMUCtrl.buildRequestGroup] at packed
  obtain ⟨header, packedHeader, packed⟩ := Option.bind_eq_some_iff.mp packed
  obtain ⟨fixed, packedFixed, packed⟩ := Option.bind_eq_some_iff.mp packed
  obtain ⟨generic, packedGeneric, packed⟩ := Option.bind_eq_some_iff.mp packed
  obtain ⟨offcore, packedOffcore, -⟩ := Option.bind_eq_some_iff.mp packed
  refine ⟨mapM_packByte packedHeader cpu List.mem_cons_self, built.fixedFew, built.genericFew,
    built.offcoreFew, ?_, ?_, ?_⟩
  · intro request listed
    obtain ⟨mask, packedMask⟩ := Option.isSome_iff_exists.mp
      ((isSome_mapM_iff _ _).mp (Option.isSome_of_eq_some packedFixed) request listed)
    exact mapM_packByte packedMask _ List.mem_cons_self
  · intro request listed
    obtain ⟨mask, packedMask⟩ := Option.isSome_iff_exists.mp
      ((isSome_mapM_iff _ _).mp (Option.isSome_of_eq_some packedGeneric) request listed)
    have fit := mapM_packByte packedMask
    exact ⟨fit _ (by simp), fit _ (by simp), fit _ (by simp), fit _ (by simp)⟩
  · intro request listed
    obtain ⟨mask, packedMask⟩ := Option.isSome_iff_exists.mp
      ((isSome_mapM_iff _ _).mp (Option.isSome_of_eq_some packedOffcore) request listed)
    rw [OffcorePmuRequest.buildMask, packQuad] at packedMask
    by_contra wide
    rw [if_neg wide] at packedMask
    cases packedMask

theorem firstOf_eq_map {α β : Type} {capacity : Nat} {events : Fin capacity → β} {count : UInt8}
    {elements : List α} {entry : Option α → β} (counted : count.toNat = elements.length)
    (few : elements.length ≤ capacity) (each : ∀ index, events index = entry elements[index.val]?) :
    firstOf events count = elements.map fun element => entry (some element) := by
  have fits : count.toNat ≤ capacity := by omega
  apply List.ext_getElem?
  intro index
  by_cases listed : index < elements.length
  · rw [getElem_firstOf events (by omega) (by omega), each, List.getElem?_map,
      List.getElem?_eq_getElem listed]
    rfl
  · rw [List.getElem?_eq_none (by rw [Control.length_firstOf events fits]; omega),
      List.getElem?_eq_none (by rw [List.length_map]; omega)]

def fixedAttr (sel : UInt8 → Nat) (index : Nat) : PerfEventAttr :=
  let mask := sel (UInt8.ofNat index)
  match index with
  | 0 => ⟨.hardware, 1, mask &&& 2 = 0, mask &&& 1 = 0⟩
  | 1 => ⟨.hardware, 0, mask &&& 2 = 0, mask &&& 1 = 0⟩
  | _ => ⟨.raw, 0x13c, mask &&& 2 = 0, mask &&& 1 = 0⟩

theorem buildPerfEventAttrs_eq (eventSet : Framework.EventSet) :
    buildPerfEventAttrs eventSet = eventSet.gpEvtSel.map gpEventAttr ++
      (fixedCounters eventSet.fixedEvtGlobalCtl).map (fixedAttr eventSet.fixedEvtSel) := by
  obtain ⟨⟨first, second, third⟩, gpEvtSel, offcoreEvtSel, fixedEvtSel⟩ := eventSet
  cases first <;> cases second <;> cases third <;>
    simp [buildPerfEventAttrs, fixedEventAttr, fixedCounters, isEnabled, fixedAttr]

theorem fixedEvtSel_of_buildEventSet {request : PMUCtlRequest} {eventSet : Framework.EventSet}
    (built : buildEventSet request = some eventSet) :
    eventSet.fixedEvtSel = fixedEvtEnable (firstOf request.fixedEvents request.fixedEvtCount) := by
  rw [buildEventSet] at built
  split at built
  · cases built
  · split at built
    · cases built
    · split at built
      · cases built
      · obtain ⟨fixed, -, rfl⟩ := Option.map_eq_some_iff.mp built
        rfl

theorem flag_ne_zero (flag : Bool) : (UInt8.ofNat flag.toNat != 0) = flag := by
  cases flag with
  | false => rfl
  | true => rfl

theorem enablemask_fixedEventOf (request : FixedPmuRequest) :
    fixedEventEnablemask (fixedEventOf request.mask) =
      if request.user && request.kernel then 3 else if request.user then 2 else 1 := by
  obtain ⟨name, uarchName, ctrIndex, user, kernel⟩ := request
  cases user with
  | true =>
      cases kernel with
      | true => rfl
      | false => rfl
  | false =>
      cases kernel with
      | true => rfl
      | false => rfl

theorem enablemask_exclusions (request : FixedPmuRequest)
    (flagged : request.user = true ∨ request.kernel = true) :
    decide (fixedEventEnablemask (fixedEventOf request.mask) &&& 2 = 0) = (!request.user) ∧
      decide (fixedEventEnablemask (fixedEventOf request.mask) &&& 1 = 0) = (!request.kernel) := by
  rw [enablemask_fixedEventOf]
  revert flagged
  generalize request.user = user
  generalize request.kernel = kernel
  revert user kernel
  decide

section Decoded

variable {eventSet : EventSet} (fits : Fits 0 eventSet)

def received (eventSet : EventSet) : PMUCtlRequest :=
  RequestParser.pmuRequestOf (requestBytes 0 eventSet)

include fits

theorem received_gp :
    firstOf (received eventSet).gpEvents (received eventSet).gpEvtCount =
      eventSet.genericRequests.map fun request => gpEventOf request.mask :=
  @firstOf_eq_map _ _ _ _ _ _
    (fun request => gpEventOf ((request.map GenericPmuRequest.mask).getD
      GenericPmuRequest.defaultMask))
    (understood_requestBytes fits).gpEvtCount fits.genericFew (gpEvents_eq fits)

theorem received_fixed :
    firstOf (received eventSet).fixedEvents (received eventSet).fixedEvtCount =
      eventSet.fixedRequests.map fun request => fixedEventOf request.mask :=
  @firstOf_eq_map _ _ _ _ _ _
    (fun request => fixedEventOf ((request.map FixedPmuRequest.mask).getD
      FixedPmuRequest.defaultMask))
    (understood_requestBytes fits).fixedEvtCount fits.fixedFew (fixedEvents_eq 0 eventSet)

theorem received_indices :
    requestedIndices (received eventSet) =
      (eventSet.fixedRequests.map FixedPmuRequest.ctrIndex).map UInt8.ofNat := by
  rw [requestedIndices, received_fixed fits, List.map_map, List.map_map]
  rfl

theorem gpEventAttr_received {request : GenericPmuRequest}
    (listed : request ∈ eventSet.genericRequests) :
    gpEventAttr (buildPerfEvtSelBitmask (gpEventOf request.mask)) = attrOf (.generic request) := by
  obtain ⟨eventSelect, unitMask, -, -⟩ := fits.generic request listed
  have select := toNat_ofNat_of_lt eventSelect
  have mask := toNat_ofNat_of_lt unitMask
  simp only [gpEventAttr, buildPerfEvtSelBitmask, gpEventOf, GenericPmuRequest.mask, attrOf]
  simp only [List.getD_cons_zero, List.getD_cons_succ, select, mask, flag_ne_zero]

/-- Where no counter is asked for twice, the request for a counter is the one that is found. -/
theorem find_received (distinct : (eventSet.fixedRequests.map FixedPmuRequest.ctrIndex).Nodup)
    {request : FixedPmuRequest} (listed : request ∈ eventSet.fixedRequests) :
    (eventSet.fixedRequests.map fun request => fixedEventOf request.mask).find?
        (fun event => event.ctrIndex == UInt8.ofNat request.ctrIndex) =
      some (fixedEventOf request.mask) := by
  have fit := fits.fixed
  revert distinct fit listed
  induction eventSet.fixedRequests with
  | nil =>
      intro _ listed
      cases listed
  | cons first others ih =>
      intro distinct listed fit
      rw [List.map_cons, List.nodup_cons] at distinct
      rw [List.map_cons, List.find?_cons]
      rcases List.mem_cons.mp listed with rfl | inside
      · have same : (fixedEventOf request.mask).ctrIndex = UInt8.ofNat request.ctrIndex := rfl
        rw [same, beq_self_eq_true]
      · have other : (fixedEventOf first.mask).ctrIndex ≠ UInt8.ofNat request.ctrIndex := by
          intro same
          have values := congrArg UInt8.toNat same
          rw [toNat_ofNat_of_lt (fit request listed)] at values
          have own : (fixedEventOf first.mask).ctrIndex.toNat = first.ctrIndex :=
            toNat_ofNat_of_lt (fit first List.mem_cons_self)
          rw [own] at values
          exact distinct.1 (values ▸ List.mem_map_of_mem inside)
        rw [beq_eq_false_iff_ne.mpr other]
        exact ih distinct.2 inside fun other inside => fit other (List.mem_cons_of_mem first inside)

theorem fixedAttr_received (built : Built eventSet)
    (distinct : (eventSet.fixedRequests.map FixedPmuRequest.ctrIndex).Nodup)
    {request : FixedPmuRequest} (listed : request ∈ eventSet.fixedRequests) :
    fixedAttr (fixedEvtEnable (eventSet.fixedRequests.map fun request =>
        fixedEventOf request.mask)) request.ctrIndex = attrOf (.fixed request) := by
  obtain ⟨user, kernel⟩ := enablemask_exclusions request (built.flagged request listed)
  have mask : fixedEvtEnable (eventSet.fixedRequests.map fun request =>
      fixedEventOf request.mask) (UInt8.ofNat request.ctrIndex) =
        fixedEventEnablemask (fixedEventOf request.mask) := by
    rw [fixedEvtEnable, find_received fits distinct listed]
  simp only [fixedAttr, attrOf, mask, user, kernel]

theorem accepted_indices {known : Framework.EventSet}
    (accepted : buildEventSet (received eventSet) = some known) :
    ∀ index ∈ eventSet.fixedRequests.map FixedPmuRequest.ctrIndex, index < 3 := by
  have own := Control.accepted_of_buildEventSet accepted
  have bytes := (FixedPmcSet.isSome_enableAll _ _).mp (Option.isSome_of_eq_some own.fixed)
  intro index listed
  have fit : index < 2 ^ 8 := by
    obtain ⟨request, inside, rfl⟩ := List.mem_map.mp listed
    exact fits.fixed request inside
  have byte : UInt8.ofNat index ∈ requestedIndices (received eventSet) := by
    rw [received_indices fits]
    exact List.mem_map_of_mem listed
  have below := UInt8.lt_iff_toNat_lt.mp (bytes _ byte)
  rwa [toNat_ofNat_of_lt fit] at below

theorem attrs_eq_iff {known : Framework.EventSet} (built : Built eventSet)
    (accepted : buildEventSet (received eventSet) = some known) :
    buildPerfEventAttrs known = eventSet.requests.map attrOf ↔
      (eventSet.fixedRequests.map FixedPmuRequest.ctrIndex).Nodup := by
  have own := Control.accepted_of_buildEventSet accepted
  have fixed : known.fixedEvtGlobalCtl = FixedPmcSet.new.withIndices
      ((eventSet.fixedRequests.map FixedPmuRequest.ctrIndex).map UInt8.ofNat) := by
    rw [← received_indices fits]
    exact FixedPmcSet.enableAll_eq_some own.fixed
  have generic : known.gpEvtSel.map gpEventAttr =
      eventSet.genericRequests.map fun request => attrOf (.generic request) := by
    rw [own.gp, received_gp fits, List.map_map, List.map_map]
    apply List.map_congr_left
    intro request listed
    exact gpEventAttr_received fits listed
  have small := accepted_indices fits accepted
  have apart : eventSet.requests.map attrOf =
      (eventSet.genericRequests.map fun request => attrOf (.generic request)) ++
        eventSet.fixedRequests.map fun request => attrOf (.fixed request) := by
    rw [EventSet.requests, List.map_append, List.map_map, List.map_map]
    rfl
  rw [buildPerfEventAttrs_eq, generic, apart, List.append_cancel_left_eq]
  constructor
  · intro same
    have length : (fixedCounters known.fixedEvtGlobalCtl).length =
        (eventSet.fixedRequests.map FixedPmuRequest.ctrIndex).length := by
      simpa using congrArg List.length same
    have strict := fixedCounters_sorted known.fixedEvtGlobalCtl
    have subset : fixedCounters known.fixedEvtGlobalCtl ⊆
        eventSet.fixedRequests.map FixedPmuRequest.ctrIndex := by
      intro index listed
      obtain ⟨below, enabled⟩ := mem_fixedCounters.mp listed
      rw [fixed, isEnabled_withIndices _ _ below, Bool.or_eq_true,
        contains_ofNat (fun other inside => Nat.lt_trans (small other inside) (by decide)) below]
        at enabled
      exact enabled.resolve_left (Bool.eq_false_iff.mp (isEnabled_new index))
    have distinct := strict.imp fun less => Nat.ne_of_lt less
    have permuted := (List.subperm_of_subset distinct subset).perm_of_length_le (by omega)
    exact permuted.nodup_iff.mp distinct
  · intro distinct
    have same : fixedCounters known.fixedEvtGlobalCtl =
        eventSet.fixedRequests.map FixedPmuRequest.ctrIndex := by
      rw [fixed]
      refine (fixedCounters_eq_iff (sorted_indices built)).mpr ⟨distinct, small, ?_⟩
      intro index _ enabled
      exact absurd enabled (Bool.eq_false_iff.mp (isEnabled_new index))
    rw [same, fixedEvtSel_of_buildEventSet accepted, received_fixed fits, List.map_map]
    apply List.map_congr_left
    intro request listed
    exact fixedAttr_received fits built distinct listed

end Decoded

theorem fits_of_buildPerfEventsRequest {eventsDb : EventsDb} {events : List Event}
    {eventSet : EventSet} {text : List Char}
    (built : PMUCtrl.buildPerfEventsRequest eventsDb events = .ok (some (eventSet, some text))) :
    PMUCtrl.buildEventSet eventsDb [] events = .ok eventSet ∧ Fits 0 eventSet ∧
      text = PMUCtrl.pduOf (requestBytes 0 eventSet) := by
  rw [PMUCtrl.buildPerfEventsRequest] at built
  obtain ⟨known, accepted, done⟩ := bind_eq_ok built
  split at done
  · simp only [pure, Except.pure, Except.ok.injEq, Option.some.injEq, Prod.mk.injEq] at done
    obtain ⟨rfl, packed⟩ := done
    obtain ⟨bytes, group, rfl⟩ := Option.map_eq_some_iff.mp packed
    have fits := fits_of_buildRequestGroup (built_buildEventSet accepted) group
    refine ⟨accepted, fits, ?_⟩
    rw [Option.some.inj (group.symm.trans fits.buildRequestGroup_eq)]
  · cases done

theorem perfEventsActivation_cases {environment : Environment} {state next : State}
    {response : Response} {request : PMUCtlRequest}
    (executed : execute environment state (.perfEventsActivation request) = .returns next response)
    (granted : response.success = true) :
    state.control.enablePerfEvents request environment.perfEventsBuild =
      some (next.control, true) := by
  rw [execute] at executed
  split at executed
  · cases executed
  · rename_i control enabled
    cases executed
    exact enabled
  · cases executed
    cases granted

theorem perfColumns_iff_nodup {environment : Environment} {state next : State}
    {response : Response} {eventSet : EventSet} (built : Built eventSet) (fits : Fits 0 eventSet)
    (executed : execute environment state (.perfEventsActivation (received eventSet)) =
      .returns next response)
    (granted : response.success = true) :
    PerfColumns next.control eventSet ↔
      (eventSet.fixedRequests.map FixedPmuRequest.ctrIndex).Nodup := by
  obtain ⟨known, accepted, recorder, pmu⟩ :=
    enablePerfEvents_granted (perfEventsActivation_cases executed granted)
  rw [perfColumns_iff, ← attrs_eq_iff fits built accepted, pmu, recorder]
  exact and_iff_right rfl

end PerfEvents

/-- No two of the events need one fixed counter, and the target counts nothing else. -/
structure CountersFree (control : Control) (eventsDb : EventsDb) (events : List Event) :
    Prop where
  distinct : (fixedIndices eventsDb events).Nodup
  small : ∀ index ∈ fixedIndices eventsDb events, index < 3
  recorder : control.pmu.pmcCount = 0 ∨ control.recorder.activeRecorderType = .pmc
  generic : events.length = (fixedIndices eventsDb events).length →
    control.pmu.genericPmcCount = 0
  fixed : ∀ index < 3, isEnabled control.pmu.fixedPmcSet index = true →
    index ∈ fixedIndices eventsDb events

theorem countersOwn_iff {control : Control} {eventsDb : EventsDb} {events : List Event}
    {eventSet : EventSet} (resolved : Resolved eventsDb events eventSet) :
    CountersOwn control eventSet ↔ CountersFree control eventsDb events := by
  have permuted := resolved.fixed
  have small : (∀ request ∈ eventSet.fixedRequests, request.ctrIndex < 3) ↔
      ∀ index ∈ fixedIndices eventsDb events, index < 3 := by
    rw [← small_indices]
    exact forall_congr' fun index => by rw [permuted.mem_iff]
  have generic : eventSet.genericRequests = [] ↔
      events.length = (fixedIndices eventsDb events).length := by
    rw [← resolved.each, length_requests, ← permuted.length_eq, List.length_map,
      ← List.length_eq_zero_iff]
    omega
  have fixed : ∀ index, index ∈ eventSet.fixedRequests.map FixedPmuRequest.ctrIndex ↔
      index ∈ fixedIndices eventsDb events := fun index => permuted.mem_iff
  constructor
  · intro own
    exact ⟨permuted.nodup_iff.mp own.distinct, small.mp own.small, own.recorder,
      fun all => own.generic (generic.mpr all),
      fun index below enabled => (fixed index).mp (own.fixed index below enabled)⟩
  · intro free
    exact ⟨permuted.nodup_iff.mpr free.distinct, small.mpr free.small, free.recorder,
      fun none_ => free.generic (generic.mp none_),
      fun index below enabled => (fixed index).mpr (free.fixed index below enabled)⟩

/--
The columns are those of the event set where no fixed counter is asked for twice, and with
the counters of the processor where the target counts nothing that the profiler did not ask
for.  No request is sent for an event set without a request.
-/
theorem columns_iff {eventsDb : EventsDb} {events : List Event} {environment : Environment}
    {state next : State} {response : Response} (requested : events ≠ []) :
    (∀ cpuSet eventSet, PMUCtrl.buildEventSet eventsDb cpuSet events = .ok eventSet →
      execute environment state (activatePmu eventSet) = .returns next response →
        (PmcColumns next.control eventSet ↔ CountersFree state.control eventsDb events)) ∧
    ∀ eventSet text request,
      PMUCtrl.buildPerfEventsRequest eventsDb events = .ok (some (eventSet, some text)) →
      RequestParser.parsePmuRequest text = .ok request →
      execute environment state (.perfEventsActivation request) = .returns next response →
      response.success = true →
        (PerfColumns next.control eventSet ↔ (fixedIndices eventsDb events).Nodup) := by
  constructor
  · intro cpuSet eventSet accepted executed
    have resolved := resolved_buildEventSet accepted
    have some_ : eventSet.requests ≠ [] := by
      intro none_
      have each := resolved.each
      rw [none_] at each
      exact requested (List.length_eq_zero_iff.mp each.symm)
    rw [← countersOwn_iff resolved]
    exact pmcColumns_iff (built_buildEventSet accepted) some_ executed
  · intro eventSet text request built parsed executed granted
    obtain ⟨accepted, fits, rfl⟩ := fits_of_buildPerfEventsRequest built
    have same : request = received eventSet :=
      Except.ok.inj (parsed.symm.trans (parsePmuRequest_pduOf fits))
    rw [same] at executed
    rw [perfColumns_iff_nodup (built_buildEventSet accepted) fits executed granted,
      (resolved_buildEventSet accepted).fixed.nodup_iff]

theorem buildPerfEventsRequest_eq {eventsDb : EventsDb} {events : List Event}
    {eventSet : EventSet} (accepted : PMUCtrl.buildEventSet eventsDb [] events = .ok eventSet)
    (offcore : eventSet.offcoreRequests = []) (generic : eventSet.genericRequests = [])
    (fixed : ∀ request ∈ eventSet.fixedRequests, request.ctrIndex < 2 ^ 8) :
    Fits 0 eventSet ∧ PMUCtrl.buildPerfEventsRequest eventsDb events =
      .ok (some (eventSet, some (PMUCtrl.pduOf (requestBytes 0 eventSet)))) := by
  have built := built_buildEventSet accepted
  have fits : Fits 0 eventSet := by
    refine ⟨by decide, built.fixedFew, built.genericFew, built.offcoreFew, fixed, ?_, ?_⟩
    · rw [generic]
      exact fun _ listed => by cases listed
    · rw [offcore]
      exact fun _ listed => by cases listed
  refine ⟨fits, ?_⟩
  rw [PMUCtrl.buildPerfEventsRequest, accepted]
  simp only [bind, Except.bind, offcore, List.length_nil, if_true, fits.buildRequestGroup_eq]
  rfl

def cyclesDb : EventsDb := fun uarchName =>
  if uarchName = "CPU_CLK_UNHALTED.THREAD".toList then some (.fixedCore uarchName 1)
  else if uarchName = "CPU_CLK_UNHALTED.THREAD_ANY".toList then some (.fixedCore uarchName 1)
  else if uarchName = "CPU_CLK_UNHALTED.REF_TSC".toList then some (.fixedCore uarchName 2)
  else none

def thread : Event := ⟨"thread".toList, "CPU_CLK_UNHALTED.THREAD".toList, true, true⟩

def threadAny : Event := ⟨"core".toList, "CPU_CLK_UNHALTED.THREAD_ANY".toList, true, true⟩

def refTsc : Event := ⟨"tsc".toList, "CPU_CLK_UNHALTED.REF_TSC".toList, true, true⟩

theorem columns_thread_refTsc :
    (∃ eventSet next response,
      PMUCtrl.buildEventSet cyclesDb [7] [thread, refTsc] = .ok eventSet ∧
      execute willing (State.new []) (activatePmu eventSet) = .returns next response ∧
      PmcColumns next.control eventSet) ∧
    ∃ eventSet text request next response,
      PMUCtrl.buildPerfEventsRequest cyclesDb [thread, refTsc] =
        .ok (some (eventSet, some text)) ∧
      RequestParser.parsePmuRequest text = .ok request ∧
      execute willing (State.new []) (.perfEventsActivation request) = .returns next response ∧
      PerfColumns next.control eventSet := by
  have indices : fixedIndices cyclesDb [thread, refTsc] = [1, 2] := by decide
  have distinct : (fixedIndices cyclesDb [thread, refTsc]).Nodup := by
    rw [indices]
    decide
  have free : CountersFree (State.new []).control cyclesDb [thread, refTsc] := by
    refine ⟨distinct, ?_, .inl rfl, fun _ => rfl, ?_⟩
    · rw [indices]
      decide
    · rw [indices]
      decide
  have requested : [thread, refTsc] ≠ [] := List.cons_ne_nil _ _
  constructor
  · refine ⟨_, _, .value "", rfl, rfl, ?_⟩
    have columns := fun next =>
      @columns_iff cyclesDb _ willing (State.new []) next (.value "") requested
    exact ((columns _).1 [7] _ rfl rfl).mpr free
  · obtain ⟨fits, built⟩ := @buildPerfEventsRequest_eq cyclesDb [thread, refTsc] _ rfl rfl
      (by decide) (by decide)
    have parsed := parsePmuRequest_pduOf fits
    refine ⟨_, _, _, _, .value "", built, parsed, rfl, ?_⟩
    have columns := fun next =>
      @columns_iff cyclesDb _ willing (State.new []) next (.value "") requested
    exact ((columns _).2 _ _ _ built parsed rfl rfl).mpr distinct

/-- Three columns are named, and two counters are on. -/
theorem columns_fail_at_thread_threadAny :
    (∃ eventSet next response,
      PMUCtrl.buildEventSet cyclesDb [7] [thread, threadAny, refTsc] = .ok eventSet ∧
      execute willing (State.new []) (activatePmu eventSet) = .returns next response ∧
      eventSet.requests.length = 3 ∧
      (∀ rdpmc, (next.control.pmu.pmcValues rdpmc).length = 2) ∧
      ¬PmcColumns next.control eventSet) ∧
    ∃ eventSet text request next response,
      PMUCtrl.buildPerfEventsRequest cyclesDb [thread, threadAny, refTsc] =
        .ok (some (eventSet, some text)) ∧
      RequestParser.parsePmuRequest text = .ok request ∧
      execute willing (State.new []) (.perfEventsActivation request) = .returns next response ∧
      next.control.pmu.activeEventAttrs.length = 2 ∧ ¬PerfColumns next.control eventSet := by
  constructor
  · refine ⟨_, _, _, rfl, rfl, rfl, fun _ => rfl, ?_⟩
    intro columns
    have stored := columns.stored fun _ => 0
    revert stored
    decide
  · obtain ⟨fits, built⟩ := @buildPerfEventsRequest_eq cyclesDb [thread, threadAny, refTsc] _ rfl
      rfl (by decide) (by decide)
    refine ⟨_, _, _, _, _, built, parsePmuRequest_pduOf fits, rfl, rfl, ?_⟩
    intro columns
    have attrs := congrArg List.length ((perfColumns_iff _ _).mp columns).2
    revert attrs
    decide

end Xpedite.Profiler
