import Xpedite.Lib.Snoc
import Xpedite.Indexing.ProbeIndexCore

/-!
The index that is built from the counters of one transaction.  It leads each probe to the
counters of its key, unless a probe is found at the location of another one.
-/

namespace Xpedite.Indexing

open Xpedite.Lib
open Xpedite.Timelines (Counter Location Probe truthy)

inductive ProbeKey where
  | name (sysName : Option String)
  | location (location : Option Location)
  deriving DecidableEq

def keyOf (probe : Probe) : ProbeKey :=
  if truthy probe.sysName then .name probe.sysName else .location probe.location

def positions (key : ProbeKey) (probes : List Probe) : List Nat :=
  probes.findIdxs fun probe => keyOf probe = key

section Places

/-- The locations that are keys of the anchored map, and whether the probes stored there first
have names. -/
def nextPlaces (seen : List Probe) (places : List (Location × Bool)) (probe : Probe) :
    List (Location × Bool) :=
  if keyOf probe ∈ seen.map keyOf then places
  else
    match probe.location with
    | none => places
    | some location =>
        if (LooseDict.get Location.eq location places).isSome then places
        else places ++ [(location, truthy probe.sysName)]

/-- A probe that is new is not found at the location of another one, unless both have names. -/
def Clear (seen : List Probe) (places : List (Location × Bool)) (probe : Probe) : Prop :=
  keyOf probe ∈ seen.map keyOf ∨ ∀ location ∈ probe.location,
    ∀ named ∈ LooseDict.get Location.eq location places, named = true ∧ truthy probe.sysName = true

def Undisturbed : List Probe → List (Location × Bool) → List Probe → Prop
  | _, _, [] => True
  | seen, places, probe :: probes =>
      Clear seen places probe ∧ Undisturbed (seen ++ [probe]) (nextPlaces seen places probe) probes

instance (seen : List Probe) (places : List (Location × Bool)) (probe : Probe) :
    Decidable (Clear seen places probe) :=
  inferInstanceAs (Decidable (_ ∨ _))

instance : (seen : List Probe) → (places : List (Location × Bool)) → (probes : List Probe) →
    Decidable (Undisturbed seen places probes)
  | _, _, [] => isTrue trivial
  | seen, places, probe :: probes =>
      have := instDecidableUndisturbed (seen ++ [probe]) (nextPlaces seen places probe) probes
      inferInstanceAs (Decidable (_ ∧ _))

theorem nextPlaces_cases (seen : List Probe) (places : List (Location × Bool)) (probe : Probe) :
    nextPlaces seen places probe = places ∨ ∃ location, probe.location = some location ∧
      LooseDict.get Location.eq location places = none ∧
      nextPlaces seen places probe = places ++ [(location, truthy probe.sysName)] := by
  rw [nextPlaces]
  split
  case isTrue => exact .inl rfl
  case isFalse =>
    split
    case h_1 => exact .inl rfl
    case h_2 location located =>
      split
      case isTrue => exact .inl rfl
      case isFalse free =>
        exact .inr ⟨location, located, Option.not_isSome_iff_eq_none.mp free, rfl⟩

theorem get_nextPlaces {seen : List Probe} {places : List (Location × Bool)} {probe : Probe}
    {location : Location} {named : Bool}
    (held : LooseDict.get Location.eq location places = some named) :
    LooseDict.get Location.eq location (nextPlaces seen places probe) = some named := by
  rcases nextPlaces_cases seen places probe with same | ⟨stored, -, -, grown⟩
  · rw [same, held]
  · rw [grown, LooseDict.get_append, held, Option.some_or]

end Places

section Keys

variable {probe other : Probe}

theorem keyOf_of_named (named : truthy probe.sysName = true) : keyOf probe = .name probe.sysName :=
  if_pos named

theorem exists_location (unnamed : truthy probe.sysName = false) :
    ∃ location, probe.location = some location := by
  cases located : probe.location with
  | none =>
      rw [probe.named located] at unnamed
      cases unnamed
  | some location => exact ⟨location, rfl⟩

theorem keyOf_inj (alike : keyOf probe = keyOf other) :
    truthy probe.sysName = truthy other.sysName ∧
      (truthy other.sysName = true → probe.sysName = other.sysName) ∧
      (truthy other.sysName = false → probe.location = other.location) := by
  rw [keyOf, keyOf] at alike
  cases named : truthy probe.sysName <;> cases named' : truthy other.sysName <;>
    simp only [named, named', if_true, Bool.false_eq_true, if_false] at alike
  · exact ⟨rfl, nofun, fun _ => ProbeKey.location.inj alike⟩
  · cases alike
  · cases alike
  · exact ⟨rfl, fun _ => ProbeKey.name.inj alike, nofun⟩

end Keys

section Positions

variable {key : ProbeKey} {seen : List Probe} {probe : Probe}

theorem positions_snoc_same (alike : keyOf probe = key) :
    positions key (seen ++ [probe]) = positions key seen ++ [seen.length] := by
  rw [positions, List.findIdxs_append, List.findIdxs_singleton, if_pos (decide_eq_true alike),
    Nat.zero_add]
  rfl

theorem positions_snoc_other (differ : keyOf probe ≠ key) :
    positions key (seen ++ [probe]) = positions key seen := by
  rw [positions, List.findIdxs_append, List.findIdxs_singleton,
    if_neg (by simpa using differ), List.append_nil]
  rfl

theorem positions_eq_nil (absent : key ∉ seen.map keyOf) : positions key seen = [] := by
  rw [positions, List.findIdxs_eq_nil_iff]
  intro other listed
  refine decide_eq_false fun alike => absent ?_
  exact List.mem_map.mpr ⟨other, listed, alike⟩

theorem mem_positions {j : Nat} :
    j ∈ positions key seen ↔ ∃ other, seen[j]? = some other ∧ keyOf other = key := by
  rw [positions, List.mem_findIdxs_iff_exists_getElem_pos]
  constructor
  · rintro ⟨bound, alike⟩
    exact ⟨seen[j], List.getElem?_eq_getElem bound, of_decide_eq_true alike⟩
  · rintro ⟨other, present, alike⟩
    obtain ⟨bound, rfl⟩ := List.getElem?_eq_some_iff.mp present
    exact ⟨bound, decide_eq_true alike⟩

theorem key_unique {other : ProbeKey} (listed : key ∈ seen.map keyOf)
    (same : positions key seen = positions other seen) : key = other := by
  obtain ⟨probe, present, rfl⟩ := List.mem_map.mp listed
  obtain ⟨j, found⟩ := List.getElem?_of_mem present
  have within : j ∈ positions other seen := same ▸ mem_positions.mpr ⟨probe, found, rfl⟩
  obtain ⟨again, found', alike⟩ := mem_positions.mp within
  rw [found] at found'
  rw [Option.some.inj found', alike]

end Positions

namespace ProbeMap

variable {Value : Type} {probeMap : ProbeMap Value} {probe other : Probe} {value : Value}

theorem get_of_named (named : truthy probe.sysName = true) :
    probeMap.get probe = OrderedDict.get probe.sysName probeMap.namedProbeMap := if_pos named

theorem get_of_unnamed (unnamed : truthy probe.sysName = false) {location : Location}
    (located : probe.location = some location) :
    probeMap.get probe = LooseDict.get Location.eq location probeMap.anchoredProbeMap := by
  rw [get, unnamed, if_neg Bool.false_ne_true, located]

theorem get_congr (alike : keyOf probe = keyOf other) : probeMap.get probe = probeMap.get other := by
  obtain ⟨together, names, locations⟩ := keyOf_inj alike
  cases named : truthy other.sysName with
  | true =>
      rw [named] at together
      rw [get_of_named together, get_of_named named, names named]
  | false =>
      rw [named] at together
      obtain ⟨location, located⟩ := exists_location named
      rw [get_of_unnamed together ((locations named).trans located), get_of_unnamed named located]

theorem namedProbeMap_update : (probeMap.update probe value).namedProbeMap =
    OrderedDict.update probe.sysName value probeMap.namedProbeMap := by
  rw [update]
  cases probe.location with
  | none => rfl
  | some location => rfl

theorem anchoredProbeMap_update : (probeMap.update probe value).anchoredProbeMap =
    match probe.location with
    | some location => LooseDict.update Location.eq location value probeMap.anchoredProbeMap
    | none => probeMap.anchoredProbeMap := by
  rw [update]
  cases probe.location with
  | none => rfl
  | some location => rfl

theorem get_update_self : (probeMap.update probe value).get probe = some value := by
  cases named : truthy probe.sysName with
  | true => rw [get_of_named named, namedProbeMap_update, OrderedDict.get_update, if_pos rfl]
  | false =>
      obtain ⟨location, located⟩ := exists_location named
      rw [get_of_unnamed named located, anchoredProbeMap_update, located]
      exact LooseDict.get_update_self value _ location.eq_self

theorem get_update_of_named (named : truthy other.sysName = true)
    (differ : keyOf other ≠ keyOf probe) :
    (probeMap.update probe value).get other = probeMap.get other := by
  rw [get_of_named named, get_of_named named, namedProbeMap_update, OrderedDict.get_update, if_neg]
  intro same
  have named' : truthy probe.sysName = true := same ▸ named
  exact differ (by rw [keyOf_of_named named, keyOf_of_named named', same])

theorem get_update_of_unnamed (unnamed : truthy other.sysName = false) {location : Location}
    (located : other.location = some location) (present : (probeMap.get other).isSome = true)
    (apart : ∀ stored ∈ probe.location,
      LooseDict.place Location.eq stored (probeMap.anchoredProbeMap.map Prod.fst) ≠
        LooseDict.place Location.eq location (probeMap.anchoredProbeMap.map Prod.fst)) :
    (probeMap.update probe value).get other = probeMap.get other := by
  rw [get_of_unnamed unnamed located] at present
  rw [get_of_unnamed unnamed located, get_of_unnamed unnamed located, anchoredProbeMap_update]
  cases found : probe.location with
  | none => rfl
  | some stored => exact LooseDict.get_update_apart value present (apart stored found)

theorem get_update_of_place (unnamed : truthy other.sysName = false) {location stored : Location}
    (located : other.location = some location) (present : (probeMap.get other).isSome = true)
    (found : probe.location = some stored)
    (together : LooseDict.place Location.eq stored (probeMap.anchoredProbeMap.map Prod.fst) =
      LooseDict.place Location.eq location (probeMap.anchoredProbeMap.map Prod.fst)) :
    (probeMap.update probe value).get other = some value := by
  rw [get_of_unnamed unnamed located] at present
  rw [get_of_unnamed unnamed located, anchoredProbeMap_update, found]
  exact LooseDict.get_update_together value present together

theorem get_update_cases {result : Value}
    (found : (probeMap.update probe value).get other = some result) :
    result = value ∨ probeMap.get other = some result := by
  cases named : truthy other.sysName with
  | true =>
      rw [get_of_named named, namedProbeMap_update, OrderedDict.get_update] at found
      rw [get_of_named named]
      split at found
      case isTrue => exact .inl (Option.some.inj found).symm
      case isFalse => exact .inr found
  | false =>
      obtain ⟨location, located⟩ := exists_location named
      rw [get_of_unnamed named located, anchoredProbeMap_update] at found
      rw [get_of_unnamed named located]
      split at found
      case h_1 => exact LooseDict.get_update_cases found
      case h_2 => exact .inr found

end ProbeMap

section Steps

variable {seen : List Probe} {places : List (Location × Bool)} {map : IndexMap} {counter : Counter}
  {index : Nat}

theorem IndexMap.addCounter_found {list : Nat} (found : map.probeMap.get counter.probe = some list) :
    map.addCounter counter index =
      { map with lists := map.lists.modify list fun indices => indices ++ [index] } := by
  rw [addCounter, found]

theorem IndexMap.addCounter_new (missed : map.probeMap.get counter.probe = none) :
    map.addCounter counter index =
      ⟨map.probeMap.update counter.probe map.lists.size, map.lists.alloc [index]⟩ := by
  rw [addCounter, missed]

structure Kept (seen : List Probe) (places : List (Location × Bool)) (map : IndexMap) : Prop where
  keys : map.probeMap.anchoredProbeMap.map Prod.fst = places.map Prod.fst
  stored : ∀ probe list, map.probeMap.get probe = some list →
    list < map.lists.size ∧ ∃ j ∈ map.lists.cell list, j < seen.length
  exact : ∀ probe ∈ seen, ∃ list, map.probeMap.get probe = some list ∧
    map.lists.cell list = positions (keyOf probe) seen
  absent : ∀ probe, truthy probe.sysName = true → keyOf probe ∉ seen.map keyOf →
    map.probeMap.get probe = none
  own : ∀ probe ∈ seen, truthy probe.sysName = false → ∀ location ∈ probe.location,
    LooseDict.get Location.eq location places = some false
  holder : ∀ location, LooseDict.get Location.eq location places = some false →
    ∃ probe ∈ seen, truthy probe.sysName = false ∧ ∃ stored, probe.location = some stored ∧
      LooseDict.place Location.eq location (places.map Prod.fst) =
        LooseDict.place Location.eq stored (places.map Prod.fst)

def Misled (seen : List Probe) (map : IndexMap) : Prop :=
  ∃ probe ∈ seen, truthy probe.sysName = false ∧ ∃ list, map.probeMap.get probe = some list ∧
    list < map.lists.size ∧ ∃ j ∈ map.lists.cell list, ∃ other, seen[j]? = some other ∧
      keyOf other ≠ keyOf probe

theorem Kept.empty : Kept [] [] .empty where
  keys := rfl
  stored probe list found := by
    have missed : IndexMap.empty.probeMap.get probe = none := by
      rw [ProbeMap.get]
      split
      case isTrue => rfl
      case isFalse =>
        split
        case h_1 => rfl
        case h_2 => rfl
    rw [missed] at found
    cases found
  exact _ listed := absurd listed List.not_mem_nil
  absent _ named _ := ProbeMap.get_of_named named
  own _ listed := absurd listed List.not_mem_nil
  holder _ found := by cases found

variable (kept : Kept seen places map)
include kept

theorem Kept.isSome_get (location : Location) :
    (LooseDict.get Location.eq location map.probeMap.anchoredProbeMap).isSome =
      (LooseDict.get Location.eq location places).isSome := by
  have both : LooseDict.get Location.eq location map.probeMap.anchoredProbeMap = none ↔
      LooseDict.get Location.eq location places = none := by
    rw [LooseDict.get_eq_none_iff, LooseDict.get_eq_none_iff, kept.keys]
  rw [Bool.eq_iff_iff, Option.isSome_iff_ne_none, Option.isSome_iff_ne_none]
  exact not_congr both

theorem Kept.get_of_seen {probe : Probe} (known : keyOf probe ∈ seen.map keyOf) :
    ∃ list, map.probeMap.get probe = some list ∧
      map.lists.cell list = positions (keyOf probe) seen := by
  obtain ⟨other, listed, alike⟩ := List.mem_map.mp known
  obtain ⟨list, found, cell⟩ := kept.exact other listed
  exact ⟨list, (ProbeMap.get_congr alike).symm.trans found, alike ▸ cell⟩

theorem Kept.addCounter_seen (known : keyOf counter.probe ∈ seen.map keyOf) :
    Kept (seen ++ [counter.probe]) places (map.addCounter counter seen.length) := by
  obtain ⟨list, found, cell⟩ := kept.get_of_seen known
  rw [IndexMap.addCounter_found found]
  refine ⟨kept.keys, ?_, ?_, ?_, ?_, ?_⟩
  · intro probe other present
    obtain ⟨bound, j, within, less⟩ := kept.stored probe other present
    refine ⟨bound, j, ?_, by rw [List.length_append]; omega⟩
    by_cases same : other = list
    · rw [same] at within ⊢
      rw [Arena.cell_modify_self]
      exact List.mem_append_left _ within
    · rwa [Arena.cell_modify_of_ne _ _ same]
  · intro probe listed
    by_cases alike : keyOf counter.probe = keyOf probe
    · refine ⟨list, (ProbeMap.get_congr alike).symm.trans found, ?_⟩
      rw [Arena.cell_modify_self, cell, alike, positions_snoc_same alike]
    · have earlier : probe ∈ seen := by
        rcases List.mem_append.mp listed with earlier | last
        · exact earlier
        · exact absurd (congrArg keyOf (List.mem_singleton.mp last)).symm alike
      obtain ⟨other, present, cell'⟩ := kept.exact probe earlier
      have differ : other ≠ list := by
        rintro rfl
        exact alike (key_unique known (cell.symm.trans cell'))
      refine ⟨other, present, ?_⟩
      rw [Arena.cell_modify_of_ne _ _ differ, cell', positions_snoc_other alike]
  · intro probe named fresh
    refine kept.absent probe named fun known => fresh ?_
    rw [List.map_append]
    exact List.mem_append_left _ known
  · intro probe listed unnamed location located
    rcases List.mem_append.mp listed with earlier | last
    · exact kept.own probe earlier unnamed location located
    · rw [List.mem_singleton.mp last] at unnamed located
      obtain ⟨other, earlier, alike⟩ := List.mem_map.mp known
      obtain ⟨together, -, locations⟩ := keyOf_inj alike
      refine kept.own other earlier (together.trans unnamed) location ?_
      rw [Option.mem_def, locations unnamed]
      exact located
  · intro location held
    obtain ⟨probe, listed, rest⟩ := kept.holder location held
    exact ⟨probe, List.mem_append_left _ listed, rest⟩

theorem Kept.get_of_clear (fresh : keyOf counter.probe ∉ seen.map keyOf)
    (clear : Clear seen places counter.probe) : map.probeMap.get counter.probe = none := by
  cases named : truthy counter.probe.sysName with
  | true => exact kept.absent counter.probe named fresh
  | false =>
      obtain ⟨location, located⟩ := exists_location named
      rw [ProbeMap.get_of_unnamed named located, ← Option.not_isSome_iff_eq_none,
        kept.isSome_get location]
      intro present
      obtain ⟨other, held⟩ := Option.isSome_iff_exists.mp present
      have both := clear.resolve_left fresh location located other held
      rw [named] at both
      cases both.2

theorem Kept.get_update (clear : Clear seen places counter.probe)
    (fresh : keyOf counter.probe ∉ seen.map keyOf) {probe : Probe} (listed : probe ∈ seen)
    (list : Nat) :
    (map.probeMap.update counter.probe list).get probe = map.probeMap.get probe := by
  have differ : keyOf probe ≠ keyOf counter.probe :=
    fun alike => fresh (alike ▸ List.mem_map_of_mem listed)
  cases named : truthy probe.sysName with
  | true => exact ProbeMap.get_update_of_named named differ
  | false =>
      obtain ⟨location, located⟩ := exists_location named
      obtain ⟨other, present, -⟩ := kept.exact probe listed
      refine ProbeMap.get_update_of_unnamed named located (by rw [present]; rfl) ?_
      intro stored found together
      rw [kept.keys] at together
      have held := kept.own probe listed named location located
      rw [← LooseDict.get_congr together] at held
      cases (clear.resolve_left fresh stored found false held).1

theorem Kept.holder_nextPlaces {location : Location}
    (held : LooseDict.get Location.eq location (nextPlaces seen places counter.probe) = some false) :
    ∃ probe ∈ seen ++ [counter.probe], truthy probe.sysName = false ∧
      ∃ stored, probe.location = some stored ∧
        LooseDict.place Location.eq location
            ((nextPlaces seen places counter.probe).map Prod.fst) =
          LooseDict.place Location.eq stored
            ((nextPlaces seen places counter.probe).map Prod.fst) := by
  rcases nextPlaces_cases seen places counter.probe with same | ⟨stored, located, free, grown⟩
  · rw [same] at held ⊢
    obtain ⟨probe, listed, rest⟩ := kept.holder location held
    exact ⟨probe, List.mem_append_left _ listed, rest⟩
  · rw [grown, LooseDict.get_append] at held
    rw [grown, List.map_append]
    cases old : LooseDict.get Location.eq location places with
    | some named =>
        rw [old, Option.some_or] at held
        obtain ⟨probe, listed, unnamed, stored', located', together⟩ :=
          kept.holder location (old.trans held)
        refine ⟨probe, List.mem_append_left _ listed, unnamed, stored', located', ?_⟩
        cases position : LooseDict.place Location.eq location (places.map Prod.fst) with
        | none =>
            rw [LooseDict.get_eq_none_iff.mpr position] at old
            cases old
        | some position' =>
            rw [position] at together
            rw [LooseDict.place_append position, LooseDict.place_append together.symm]
    | none =>
        rw [old, Option.none_or, LooseDict.get] at held
        split at held
        case isTrue found =>
          refine ⟨counter.probe, List.mem_append_right _ (List.mem_singleton.mpr rfl),
            Option.some.inj held, stored, located, ?_⟩
          exact (LooseDict.place_concat_self (LooseDict.get_eq_none_iff.mp old) found).trans
            (LooseDict.place_concat_self (LooseDict.get_eq_none_iff.mp free)
              stored.eq_self).symm
        case isFalse => cases held

theorem Kept.addCounter_clear (clear : Clear seen places counter.probe)
    (fresh : keyOf counter.probe ∉ seen.map keyOf) :
    Kept (seen ++ [counter.probe]) (nextPlaces seen places counter.probe)
      (map.addCounter counter seen.length) := by
  have missed := kept.get_of_clear fresh clear
  rw [IndexMap.addCounter_new missed]
  refine ⟨?_, ?_, ?_, ?_, ?_, ?_⟩
  · rw [ProbeMap.anchoredProbeMap_update, nextPlaces, if_neg fresh]
    cases counter.probe.location with
    | none => exact kept.keys
    | some location =>
        dsimp only
        rw [LooseDict.keys_update, kept.isSome_get location, kept.keys, apply_ite (List.map _),
          List.map_append]
        rfl
  · intro probe list present
    rcases ProbeMap.get_update_cases present with rfl | old
    · refine ⟨Nat.lt_succ_self _, seen.length, ?_, ?_⟩
      · rw [Arena.cell_alloc_fresh]
        exact List.mem_singleton.mpr rfl
      · rw [List.length_append]
        exact Nat.lt_succ_self _
    · obtain ⟨bound, j, within, less⟩ := kept.stored probe list old
      refine ⟨Nat.lt_succ_of_lt bound, j, ?_, by rw [List.length_append]; omega⟩
      rwa [Arena.cell_alloc_of_lt _ _ bound]
  · intro probe listed
    by_cases alike : keyOf counter.probe = keyOf probe
    · refine ⟨map.lists.size, ?_, ?_⟩
      · rw [← ProbeMap.get_congr alike]
        exact ProbeMap.get_update_self
      · rw [Arena.cell_alloc_fresh, positions_snoc_same alike, ← alike, positions_eq_nil fresh]
        rfl
    · have earlier : probe ∈ seen := by
        rcases List.mem_append.mp listed with earlier | last
        · exact earlier
        · exact absurd (congrArg keyOf (List.mem_singleton.mp last)).symm alike
      obtain ⟨list, present, cell⟩ := kept.exact probe earlier
      refine ⟨list, (kept.get_update clear fresh earlier _).trans present, ?_⟩
      rw [Arena.cell_alloc_of_lt _ _ (kept.stored probe list present).1, cell,
        positions_snoc_other alike]
  · intro probe named absent
    rw [List.map_append, List.mem_append, not_or] at absent
    refine (ProbeMap.get_update_of_named named fun alike => absent.2 ?_).trans
      (kept.absent probe named absent.1)
    rw [alike]
    exact List.mem_singleton.mpr rfl
  · intro probe listed unnamed location located
    rcases List.mem_append.mp listed with earlier | last
    · exact get_nextPlaces (kept.own probe earlier unnamed location located)
    · rw [List.mem_singleton.mp last] at unnamed located
      rw [Option.mem_def] at located
      have free : LooseDict.get Location.eq location places = none := by
        rw [← Option.not_isSome_iff_eq_none, ← kept.isSome_get location,
          ← ProbeMap.get_of_unnamed unnamed located, missed]
        exact Bool.false_ne_true
      rw [nextPlaces, if_neg fresh, located]
      dsimp only
      rw [free, if_neg (by exact Bool.false_ne_true), LooseDict.get_append, free, Option.none_or,
        unnamed]
      exact if_pos location.eq_self
  · exact fun location held => kept.holder_nextPlaces held

theorem Kept.addCounter_misled (disturbed : ¬Clear seen places counter.probe) :
    Misled (seen ++ [counter.probe]) (map.addCounter counter seen.length) := by
  rw [Clear, not_or] at disturbed
  obtain ⟨fresh, disturbed⟩ := disturbed
  push Not at disturbed
  obtain ⟨location, located, named, held, differ⟩ := disturbed
  rw [Option.mem_def] at located held
  have present : (LooseDict.get Location.eq location map.probeMap.anchoredProbeMap).isSome = true := by
    rw [kept.isSome_get location, held]
    rfl
  have itself : (seen ++ [counter.probe])[seen.length]? = some counter.probe :=
    List.getElem?_concat_length
  cases ownName : truthy counter.probe.sysName with
  | true =>
      have missed := kept.absent counter.probe ownName fresh
      rw [IndexMap.addCounter_new missed]
      have unnamed' : named = false := Bool.eq_false_iff.mpr fun other => differ other ownName
      obtain ⟨probe, listed, unnamed, stored, located', together⟩ :=
        kept.holder location (unnamed' ▸ held)
      obtain ⟨list, found, -⟩ := kept.exact probe listed
      refine ⟨probe, List.mem_append_left _ listed, unnamed, map.lists.size, ?_,
        Nat.lt_succ_self _, seen.length, ?_, counter.probe, itself, ?_⟩
      · refine ProbeMap.get_update_of_place unnamed located' (by rw [found]; rfl) located ?_
        rw [kept.keys, together]
      · rw [Arena.cell_alloc_fresh]
        exact List.mem_singleton.mpr rfl
      · exact fun alike => fresh (alike ▸ List.mem_map_of_mem listed)
  | false =>
      rw [← ProbeMap.get_of_unnamed ownName located] at present
      obtain ⟨list, found⟩ := Option.isSome_iff_exists.mp present
      rw [IndexMap.addCounter_found found]
      obtain ⟨bound, j, within, less⟩ := kept.stored counter.probe list found
      refine ⟨counter.probe, List.mem_append_right _ (List.mem_singleton.mpr rfl), ownName, list,
        found, bound, j, ?_, seen[j], ?_, ?_⟩
      · rw [Arena.cell_modify_self]
        exact List.mem_append_left _ within
      · rw [List.getElem?_append_left less, List.getElem?_eq_getElem less]
      · exact fun alike => fresh (alike ▸ List.mem_map_of_mem (List.getElem_mem less))

omit kept in
theorem Misled.addCounter (misled : Misled seen map) :
    Misled (seen ++ [counter.probe]) (map.addCounter counter seen.length) := by
  obtain ⟨probe, listed, unnamed, list, found, bound, j, within, other, present, differ⟩ := misled
  have present' : (seen ++ [counter.probe])[j]? = some other := by
    rw [List.getElem?_append_left (List.getElem?_eq_some_iff.mp present).1, present]
  cases hit : map.probeMap.get counter.probe with
  | some grown =>
      rw [IndexMap.addCounter_found hit]
      refine ⟨probe, List.mem_append_left _ listed, unnamed, list, found, bound, j, ?_, other,
        present', differ⟩
      by_cases same : list = grown
      · rw [same] at within ⊢
        rw [Arena.cell_modify_self]
        exact List.mem_append_left _ within
      · rwa [Arena.cell_modify_of_ne _ _ same]
  | none =>
      rw [IndexMap.addCounter_new hit]
      obtain ⟨location, located⟩ := exists_location unnamed
      have some_ : (map.probeMap.get probe).isSome = true := by rw [found]; rfl
      by_cases apart : ∀ stored ∈ counter.probe.location,
          LooseDict.place Location.eq stored (map.probeMap.anchoredProbeMap.map Prod.fst) ≠
            LooseDict.place Location.eq location (map.probeMap.anchoredProbeMap.map Prod.fst)
      · refine ⟨probe, List.mem_append_left _ listed, unnamed, list, ?_, Nat.lt_succ_of_lt bound, j,
          ?_, other, present', differ⟩
        · exact (ProbeMap.get_update_of_unnamed unnamed located some_ apart).trans found
        · rwa [Arena.cell_alloc_of_lt _ _ bound]
      · -- the list of the probe is replaced by one for a probe with a name
        push Not at apart
        obtain ⟨stored, stored', together⟩ := apart
        rw [Option.mem_def] at stored'
        refine ⟨probe, List.mem_append_left _ listed, unnamed, map.lists.size, ?_,
          Nat.lt_succ_self _, seen.length, ?_, counter.probe, List.getElem?_concat_length, ?_⟩
        · exact ProbeMap.get_update_of_place unnamed located some_ stored' together
        · rw [Arena.cell_alloc_fresh]
          exact List.mem_singleton.mpr rfl
        · intro alike
          rw [← ProbeMap.get_congr alike, hit] at found
          cases found

end Steps

section Runs

theorem Misled.addCounters {seen : List Probe} {map : IndexMap} (misled : Misled seen map)
    (counters : List Counter) :
    Misled (seen ++ counters.map Counter.probe) (map.addCounters seen.length counters) := by
  induction counters generalizing seen map with
  | nil => rwa [List.map_nil, List.append_nil]
  | cons counter counters ih =>
      have rest := ih (@Misled.addCounter _ _ counter misled)
      rwa [List.length_append, List.append_assoc] at rest

theorem Kept.addCounters {seen : List Probe} {places : List (Location × Bool)} {map : IndexMap}
    (kept : Kept seen places map) (counters : List Counter) :
    (Undisturbed seen places (counters.map Counter.probe) →
        ∃ places', Kept (seen ++ counters.map Counter.probe) places'
          (map.addCounters seen.length counters)) ∧
      (¬Undisturbed seen places (counters.map Counter.probe) →
        Misled (seen ++ counters.map Counter.probe) (map.addCounters seen.length counters)) := by
  induction counters generalizing seen places map with
  | nil =>
      rw [List.map_nil, List.append_nil]
      exact ⟨fun _ => ⟨places, kept⟩, fun disturbed => absurd trivial disturbed⟩
  | cons counter counters ih =>
      by_cases clear : Clear seen places counter.probe
      · have next : Kept (seen ++ [counter.probe]) (nextPlaces seen places counter.probe)
            (map.addCounter counter seen.length) := by
          by_cases known : keyOf counter.probe ∈ seen.map keyOf
          · rw [nextPlaces, if_pos known]
            exact kept.addCounter_seen known
          · exact kept.addCounter_clear clear known
        obtain ⟨exact', misled⟩ := ih next
        rw [List.length_append, List.append_assoc] at exact' misled
        exact ⟨fun undisturbed => exact' undisturbed.2,
          fun disturbed => misled fun rest => disturbed ⟨clear, rest⟩⟩
      · have misled := (kept.addCounter_misled clear).addCounters counters
        rw [List.length_append, List.append_assoc] at misled
        exact ⟨fun undisturbed => absurd undisturbed.1 clear, fun _ => misled⟩

theorem get_addCounters {counters : List Counter}
    (undisturbed : Undisturbed [] [] (counters.map Counter.probe)) {probe : Probe}
    (listed : probe ∈ counters.map Counter.probe) :
    (IndexMap.empty.addCounters 0 counters).get probe =
      some (positions (keyOf probe) (counters.map Counter.probe)) := by
  obtain ⟨places, kept⟩ := (Kept.empty.addCounters counters).1 undisturbed
  obtain ⟨list, found, cell⟩ := kept.exact probe listed
  exact (congrArg (Option.map _) found).trans (congrArg some cell)

/-- In a misled index, a list for a probe holds an index of one with another key. -/
theorem exists_misled {counters : List Counter}
    (disturbed : ¬Undisturbed [] [] (counters.map Counter.probe)) :
    ∃ probe ∈ counters.map Counter.probe, ∃ indices,
      (IndexMap.empty.addCounters 0 counters).get probe = some indices ∧ ∃ j ∈ indices, ∃ other,
        (counters.map Counter.probe)[j]? = some other ∧ keyOf other ≠ keyOf probe := by
  obtain ⟨probe, listed, -, list, found, -, rest⟩ :=
    (Kept.empty.addCounters counters).2 disturbed
  exact ⟨probe, listed, _, congrArg (Option.map _) found, rest⟩

end Runs

end Xpedite.Indexing
