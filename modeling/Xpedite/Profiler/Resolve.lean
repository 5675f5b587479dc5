import Xpedite.Lib.StableSort
import Xpedite.Profiler.Allocation
import Xpedite.Profiler.Columns

/-!
What `buildEventSet` makes of a list of events: each has a request of its kind, an offcore event
also one for the register that goes with its event select code.
-/

namespace Xpedite.Profiler

open Lib PmuRequestFactory

def genericRequestOf (event : Event) (core : CoreEvent) : GenericPmuRequest :=
  ⟨event.name, core.name, core, event.user, event.kernel⟩

def fixedRequestOf (event : Event) (name : List Char) (validPmc : Nat) : FixedPmuRequest :=
  ⟨event.name, name, validPmc, event.user, event.kernel⟩

def offcoreRequestOf (event : Event) (core : CoreEvent) : OffcorePmuRequest :=
  ⟨event.name, core.name, core⟩

def coded (core : CoreEvent) (code : Nat) : CoreEvent := { core with eventSelect := code }

def Requested (eventsDb : EventsDb) (event : Event) (eventSet : EventSet) : Prop :=
  match eventsDb event.uarchName with
  | some (.genericCore core) => genericRequestOf event core ∈ eventSet.genericRequests
  | some (.fixedCore name validPmc) => fixedRequestOf event name validPmc ∈ eventSet.fixedRequests
  | some (.offCore core) => ∃ index code : Nat, eventSelects[index]? = some code ∧
      genericRequestOf event (coded core code) ∈ eventSet.genericRequests ∧
      eventSet.offcoreRequests[index]? = some (offcoreRequestOf event (coded core code))
  | some .unCore => False
  | none => False

structure Extends (eventSet next : EventSet) : Prop where
  generic : eventSet.genericRequests ⊆ next.genericRequests
  fixed : eventSet.fixedRequests ⊆ next.fixedRequests
  offcore : eventSet.offcoreRequests <+: next.offcoreRequests

theorem Extends.requested {eventSet next : EventSet} (extended : Extends eventSet next)
    {eventsDb : EventsDb} {event : Event} (requested : Requested eventsDb event eventSet) :
    Requested eventsDb event next := by
  unfold Requested at requested ⊢
  split at requested
  · exact extended.generic requested
  · exact extended.fixed requested
  · obtain ⟨index, code, known, generic, offcore⟩ := requested
    obtain ⟨later, same⟩ := extended.offcore
    have inside := (List.getElem?_eq_some_iff.mp offcore).1
    refine ⟨index, code, known, extended.generic generic, ?_⟩
    rw [← same, List.getElem?_append_left inside, offcore]
  · exact requested
  · exact requested

def fixedAsked (eventsDb : EventsDb) (event : Event) : Option FixedPmuRequest :=
  match eventsDb event.uarchName with
  | some (.fixedCore name validPmc) => some (fixedRequestOf event name validPmc)
  | _ => none

def FixedFrom (eventsDb : EventsDb) (events : List Event) (eventSet : EventSet) : Prop :=
  eventSet.fixedRequests =
    sortBy FixedPmuRequest.ctrIndex (events.filterMap (fixedAsked eventsDb))

theorem FixedFrom.other {eventsDb : EventsDb} {events : List Event} {eventSet next : EventSet}
    (asked : FixedFrom eventsDb events eventSet) {event : Event}
    (other : fixedAsked eventsDb event = none) (same : next.fixedRequests = eventSet.fixedRequests) :
    FixedFrom eventsDb (events ++ [event]) next := by
  rw [FixedFrom, List.filterMap_append, List.filterMap_cons_none other, List.filterMap_nil,
    List.append_nil, same]
  exact asked

theorem FixedFrom.fixed {eventsDb : EventsDb} {events : List Event} {eventSet next : EventSet}
    (asked : FixedFrom eventsDb events eventSet) {event : Event} {request : FixedPmuRequest}
    (own : fixedAsked eventsDb event = some request)
    (added : next.fixedRequests =
      sortBy FixedPmuRequest.ctrIndex (eventSet.fixedRequests ++ [request])) :
    FixedFrom eventsDb (events ++ [event]) next := by
  rw [FixedFrom, List.filterMap_append, List.filterMap_cons_some own, List.filterMap_nil, added,
    asked, sortBy_sortBy_append]

theorem addFixed_spec {eventSet next : EventSet} {request : FixedPmuRequest}
    (added : eventSet.addFixedPmuRequest request = .ok next) :
    Extends eventSet next ∧ request ∈ next.fixedRequests ∧
      next.offcoreRequests = eventSet.offcoreRequests ∧
      next.fixedRequests =
        sortBy FixedPmuRequest.ctrIndex (eventSet.fixedRequests ++ [request]) := by
  have perm := (addFixed_perm added).2
  rw [EventSet.addFixedPmuRequest] at added
  split at added
  · cases added
  · obtain rfl := Except.ok.inj added
    refine ⟨⟨by simp, fun other listed => ?_, List.prefix_rfl⟩, perm.mem_iff.mpr (by simp), rfl,
      rfl⟩
    exact perm.mem_iff.mpr (List.mem_append_left _ listed)

section Resolve

variable {eventsDb : EventsDb}

theorem genericRequest_of_new {name : List Char} {core : CoreEvent} {user kernel : Bool}
    {request : GenericPmuRequest} (made : GenericPmuRequest.new name core user kernel = .ok request) :
    request = ⟨name, core.name, core, user, kernel⟩ := by
  rw [GenericPmuRequest.new] at made
  split at made
  · cases made
  · split at made
    · cases made
    · exact (Except.ok.inj made).symm

theorem fixedRequest_of_new {name uarchName : List Char} {validPmc : Nat} {user kernel : Bool}
    {request : FixedPmuRequest}
    (made : FixedPmuRequest.new name uarchName validPmc user kernel = .ok request) :
    request = ⟨name, uarchName, validPmc, user, kernel⟩ := by
  rw [FixedPmuRequest.new] at made
  split at made
  · cases made
  · exact (Except.ok.inj made).symm

theorem offcoreRequest_of_new {name : List Char} {core : CoreEvent} {request : OffcorePmuRequest}
    (made : OffcorePmuRequest.new name core = .ok request) : request = ⟨name, core.name, core⟩ := by
  rw [OffcorePmuRequest.new] at made
  split at made
  · cases made
  · exact (Except.ok.inj made).symm

def Counted (resolved : Nat × EventSet) : Prop := resolved.1 = resolved.2.offcoreRequests.length

theorem resolveEvent_spec {state next : Nat × EventSet} {event : Event} (counted : Counted state)
    (taken : PMUCtrl.resolveEvent eventsDb state event = .ok next) :
    Counted next ∧ Extends state.2 next.2 ∧ Requested eventsDb event next.2 ∧
      ∀ events, FixedFrom eventsDb events state.2 →
        FixedFrom eventsDb (events ++ [event]) next.2 := by
  obtain ⟨⟨count, requests⟩, built, taken⟩ := bind_eq_ok taken
  obtain ⟨eventSet, added, taken⟩ := bind_eq_ok taken
  obtain rfl := Except.ok.inj taken
  unfold Requested
  rw [buildRequests] at built
  cases found : eventsDb event.uarchName with
  | none =>
      rw [found] at built
      cases built
  | some uarchEvent =>
      rw [found] at built
      cases uarchEvent with
      | genericCore core =>
          obtain ⟨request, made, built⟩ := bind_eq_ok built
          obtain ⟨rfl, rfl⟩ := Prod.mk.inj (Except.ok.inj built)
          obtain rfl := genericRequest_of_new made
          obtain ⟨last, adds, done⟩ := bind_eq_ok added
          obtain rfl := Except.ok.inj done
          obtain rfl := addGeneric_cases adds
          have other : fixedAsked eventsDb event = none := by rw [fixedAsked, found]
          exact ⟨counted, ⟨by simp, by simp, List.prefix_rfl⟩, by simp [genericRequestOf],
            fun events asked => asked.other other rfl⟩
      | fixedCore name validPmc =>
          obtain ⟨request, made, built⟩ := bind_eq_ok built
          obtain ⟨rfl, rfl⟩ := Prod.mk.inj (Except.ok.inj built)
          obtain rfl := fixedRequest_of_new made
          obtain ⟨last, adds, done⟩ := bind_eq_ok added
          obtain rfl := Except.ok.inj done
          obtain ⟨extended, listed, offcore, sorted⟩ := addFixed_spec adds
          have own : fixedAsked eventsDb event = some (fixedRequestOf event name validPmc) := by
            rw [fixedAsked, found]
          exact ⟨counted.trans (by rw [offcore]), extended, listed,
            fun events asked => asked.fixed own sorted⟩
      | offCore core =>
          simp only [buildOffCoreRequests] at built
          split at built
          · cases built
          · rename_i code known
            obtain ⟨generic, madeGeneric, built⟩ := bind_eq_ok built
            obtain ⟨offcore, madeOffcore, built⟩ := bind_eq_ok built
            obtain ⟨rfl, rfl⟩ := Prod.mk.inj (Except.ok.inj built)
            obtain rfl := genericRequest_of_new madeGeneric
            obtain rfl := offcoreRequest_of_new madeOffcore
            obtain ⟨middle, addedGeneric, others⟩ := bind_eq_ok added
            obtain ⟨last, addedOffcore, done⟩ := bind_eq_ok others
            obtain rfl := Except.ok.inj done
            obtain rfl := addGeneric_cases addedGeneric
            obtain rfl := addOffcore_cases addedOffcore
            have other : fixedAsked eventsDb event = none := by rw [fixedAsked, found]
            refine ⟨?_, ⟨by simp, by simp, List.prefix_append _ _⟩,
              ⟨state.1, code, known, ?_, ?_⟩, fun events asked => asked.other other rfl⟩
            · simp [Counted, counted.symm]
            · simp [genericRequestOf, coded]
            · simp [counted.symm, offcoreRequestOf, coded]
      | unCore => cases built

theorem resolveEvents_requested {cpuSet : List Nat} {events : List Event} {eventSet : EventSet}
    (called : PMUCtrl.resolveEvents eventsDb cpuSet events = .ok eventSet) :
    (∀ event ∈ events, Requested eventsDb event eventSet) ∧ FixedFrom eventsDb events eventSet := by
  rw [PMUCtrl.resolveEvents] at called
  split at called
  · cases called
  · rcases folded : events.foldlM (PMUCtrl.resolveEvent eventsDb) (0, EventSet.new cpuSet) with
      cause | final
    · rw [folded] at called
      cases called
    · rw [folded] at called
      obtain rfl := Except.ok.inj called
      have start : Counted (0, EventSet.new cpuSet) := rfl
      constructor
      · refine @foldlM_collects _ _ _ _ _ (fun event state => Requested eventsDb event state.2)
          ?_ ?_ events _ final start folded
        · intro state event next counted taken
          obtain ⟨countedNext, -, requested, -⟩ := resolveEvent_spec counted taken
          exact ⟨countedNext, requested⟩
        · intro state event next other counted taken requested
          exact (resolveEvent_spec counted taken).2.1.requested requested
      · refine (@foldlM_grows _ _ _ _
          (fun taken state => Counted state ∧ FixedFrom eventsDb taken state.2)
          ?_ [] events _ final ⟨start, rfl⟩ folded).2
        rintro events state event next ⟨counted, asked⟩ taken
        obtain ⟨countedNext, -, -, grown⟩ := resolveEvent_spec counted taken
        exact ⟨countedNext, grown events asked⟩

theorem allocateEvents_spec {eventSet allocated : EventSet}
    (called : PMUCtrl.allocateEvents eventSet = .ok allocated) :
    IsOrdering eventSet.genericRequests allocated.genericRequests ∧
      allocated.fixedRequests = eventSet.fixedRequests ∧
      allocated.offcoreRequests = eventSet.offcoreRequests := by
  rw [PMUCtrl.allocateEvents] at called
  split at called
  · rename_i empty
    obtain rfl := Except.ok.inj called
    refine ⟨⟨.refl _, ?_⟩, rfl, rfl⟩
    simp [empty]
  · obtain ⟨sorted, sorts, called⟩ := bind_eq_ok called
    cases sorted with
    | none => cases called
    | some sorted =>
        obtain ⟨ordering, rfl, isOrdering⟩ := RequestSorter.sort_sound sorts
        simp only [Option.bind_some, mapM_id_map_some] at called
        split at called
        · obtain rfl := Except.ok.inj called
          exact ⟨isOrdering, rfl, rfl⟩
        · cases called

theorem requested_buildEventSet {cpuSet : List Nat} {events : List Event} {eventSet : EventSet}
    (called : PMUCtrl.buildEventSet eventsDb cpuSet events = .ok eventSet) :
    (∀ event ∈ events, Requested eventsDb event eventSet) ∧ FixedFrom eventsDb events eventSet ∧
      ∀ (index : Nat) (request : GenericPmuRequest),
        eventSet.genericRequests[index]? = some request → index ∈ request.event.validPmc := by
  obtain ⟨resolved, resolves, allocates⟩ := bind_eq_ok called
  obtain ⟨⟨perm, usable⟩, fixed, offcore⟩ := allocateEvents_spec allocates
  obtain ⟨requested, asked⟩ := resolveEvents_requested resolves
  refine ⟨fun event listed => ?_, fixed.trans asked, usable⟩
  have extended : Extends resolved eventSet :=
    ⟨perm.symm.subset, by simp [fixed], by simp [offcore]⟩
  exact extended.requested (requested event listed)

end Resolve

section First

variable {eventsDb : EventsDb} {events : List Event} {eventSet : EventSet}

def onFixed (eventsDb : EventsDb) (ctrIndex : Nat) (event : Event) : Bool :=
  (fixedAsked eventsDb event).any fun request => request.ctrIndex == ctrIndex

theorem FixedFrom.first (asked : FixedFrom eventsDb events eventSet) {ctrIndex : Nat}
    {request : FixedPmuRequest}
    (found : eventSet.fixedRequests.find? (fun other => other.ctrIndex == ctrIndex) =
      some request) :
    ∃ event, events.find? (onFixed eventsDb ctrIndex) = some event ∧
      request.user = event.user ∧ request.kernel = event.kernel := by
  rw [asked, find?_sortBy, List.find?_filterMap] at found
  obtain ⟨event, first, own⟩ := Option.bind_eq_some_iff.mp found
  refine ⟨event, first, ?_⟩
  rw [fixedAsked] at own
  split at own
  · obtain rfl := Option.some_inj.mp own
    exact ⟨rfl, rfl⟩
  · cases own

end First

end Xpedite.Profiler
