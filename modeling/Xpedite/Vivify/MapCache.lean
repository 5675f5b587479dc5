import Mathlib.Data.List.Induction
import Mathlib.Data.List.Pairwise
import Xpedite.Vivify.StackUnwindCore

/-!
The cache of maps.  The segments of the maps made so far are an address space themselves, part of
the whole one, and a search in it that fails ends where the segment that is missing belongs.
-/

namespace Xpedite.Vivify

open Lib

namespace Segment

variable {left right segment : Segment} {addr : UInt64}

theorem start_lt_stop (segment : Segment) : segment.start.toNat < segment.stop.toNat :=
  UInt64.lt_iff_toNat_lt.mp segment.nonempty

theorem contains_iff : segment.Contains addr ↔
    segment.start.toNat ≤ addr.toNat ∧ addr.toNat < segment.stop.toNat := by
  rw [Contains, UInt64.le_iff_toNat_le, UInt64.lt_iff_toNat_lt]

theorem disjoint_iff : left.Disjoint right ↔
    left.stop.toNat ≤ right.start.toNat ∨ right.stop.toNat ≤ left.start.toNat := by
  rw [Disjoint, UInt64.le_iff_toNat_le, UInt64.le_iff_toNat_le]

theorem above_iff : segment.above addr = true ↔ addr.toNat < segment.stop.toNat := by
  rw [above, decide_eq_true_eq, UInt64.lt_iff_toNat_lt]

theorem above_eq_false_iff : segment.above addr = false ↔ segment.stop.toNat ≤ addr.toNat := by
  rw [Bool.eq_false_iff, Ne, above_iff, Nat.not_lt]

instance : Std.Symm Disjoint := ⟨fun _ _ disjoint => disjoint.symm⟩

theorem Disjoint.not_contains (disjoint : left.Disjoint right) (inside : left.Contains addr) :
    ¬right.Contains addr := by
  rw [disjoint_iff] at disjoint
  rw [contains_iff] at inside ⊢
  omega

end Segment

namespace AddressSpace

variable {space : AddressSpace} {addr : UInt64} {segment : Segment}

theorem divides (space : AddressSpace) (addr : UInt64) :
    Divides (Segment.above addr) space.segments (upperBound (Segment.above addr) space.segments) := by
  refine upperBound_divides (space.sorted.imp fun order left => ?_)
  rw [Segment.above_iff] at left ⊢
  exact Nat.lt_of_lt_of_le left (UInt64.le_iff_toNat_le.mp order)

theorem disjoint_of_ne {left right : Segment} (first : left ∈ space.segments)
    (second : right ∈ space.segments) (different : left ≠ right) : left.Disjoint right :=
  space.disjoint.forall first second different

theorem eq_of_contains {left right : Segment} (first : left ∈ space.segments)
    (inside : left.Contains addr) (second : right ∈ space.segments) (inside' : right.Contains addr) :
    left = right := by
  by_contra different
  exact (space.disjoint_of_ne first second different).not_contains inside inside'

theorem apart (space : AddressSpace) :
    space.segments.Pairwise fun left right => left.stop.toNat ≤ right.start.toNat := by
  refine space.disjoint.imp₂ (fun left right disjoint order => ?_) space.sorted
  have proper := left.start_lt_stop
  rw [Segment.disjoint_iff] at disjoint
  rw [UInt64.le_iff_toNat_le] at order
  omega

/-- A segment with an address in it is the first one that ends above the address. -/
theorem getElem?_upperBound (member : segment ∈ space.segments) (inside : segment.Contains addr) :
    space.segments[upperBound (Segment.above addr) space.segments]? = some segment := by
  have divides := space.divides addr
  obtain ⟨start, stop⟩ := Segment.contains_iff.mp inside
  obtain ⟨index, bound, rfl⟩ := List.getElem_of_mem member
  have reached : upperBound (Segment.above addr) space.segments ≤ index := by
    by_contra before
    have below := divides.below index (by omega) _ (List.getElem?_eq_getElem bound)
    rw [Segment.above_eq_false_iff] at below
    omega
  rcases Nat.eq_or_lt_of_le reached with here | later
  · rw [here, List.getElem?_eq_getElem bound]
  · have first := divides.above _ (Nat.le_refl _) _ (List.getElem?_eq_getElem (by omega))
    have order := List.pairwise_iff_getElem.mp space.apart _ _ (by omega) bound later
    rw [Segment.above_iff] at first
    omega

theorem find_eq_some_iff :
    space.find addr = some segment ↔ segment ∈ space.segments ∧ segment.Contains addr := by
  constructor
  · intro found
    rw [find] at found
    split at found
    case h_1 first here =>
      split at found
      case isTrue start =>
        cases found
        have above := (space.divides addr).above _ (Nat.le_refl _) _ here
        exact ⟨List.mem_of_getElem? here, start,
          UInt64.lt_iff_toNat_lt.mpr (Segment.above_iff.mp above)⟩
      case isFalse => cases found
    case h_2 => cases found
  · rintro ⟨member, inside⟩
    rw [find, getElem?_upperBound member inside]
    exact if_pos inside.1

theorem find_eq_none_iff :
    space.find addr = none ↔ ∀ segment ∈ space.segments, ¬segment.Contains addr := by
  rw [Option.eq_none_iff_forall_ne_some]
  constructor
  · exact fun none segment member inside => none segment (find_eq_some_iff.mpr ⟨member, inside⟩)
  · intro none segment found
    obtain ⟨member, inside⟩ := find_eq_some_iff.mp found
    exact none segment member inside

end AddressSpace

namespace Ctxt

variable {space : AddressSpace} {ctxt : Ctxt} {addr : UInt64} {segment : Segment}

def segments (ctxt : Ctxt) : List Segment := ctxt.maps.map Map.segment

/-- Strictly sorted, so that no segment has two maps. -/
structure Valid (space : AddressSpace) (ctxt : Ctxt) : Prop where
  sorted : ctxt.segments.Pairwise fun left right => left.stop < right.stop
  known : ∀ segment ∈ ctxt.segments, segment ∈ space.segments
  named : ∀ map ∈ ctxt.maps, map.file = map.segment.name
  labelled : ∀ name, (ctxt.file name).name = name

theorem new_valid (space : AddressSpace) : new.Valid space :=
  ⟨.nil, List.forall_mem_nil _, List.forall_mem_nil _, fun _ => rfl⟩

theorem Valid.disjoint (valid : ctxt.Valid space) : ctxt.segments.Pairwise Segment.Disjoint := by
  refine valid.sorted.imp_of_mem fun first second order => ?_
  refine space.disjoint_of_ne (valid.known _ first) (valid.known _ second) ?_
  rintro rfl
  exact UInt64.lt_irrefl _ order

def Valid.cached (valid : ctxt.Valid space) : AddressSpace where
  segments := ctxt.segments
  disjoint := valid.disjoint
  sorted := valid.sorted.imp UInt64.le_of_lt

theorem upperBound_maps (ctxt : Ctxt) (addr : UInt64) :
    upperBound (Map.above addr) ctxt.maps = upperBound (Segment.above addr) ctxt.segments :=
  (upperBound_map (Segment.above addr) Map.segment ctxt.maps).symm

theorem Valid.divides (valid : ctxt.Valid space) (addr : UInt64) :
    Divides (Segment.above addr) ctxt.segments (upperBound (Map.above addr) ctxt.maps) := by
  rw [upperBound_maps]
  exact valid.cached.divides addr

theorem Valid.cached_find (valid : ctxt.Valid space) (addr : UInt64) :
    valid.cached.find addr =
      ((ctxt.maps[upperBound (Map.above addr) ctxt.maps]?).filter
        fun map => map.segment.start ≤ addr).map Map.segment := by
  have here : valid.cached.segments[upperBound (Segment.above addr) valid.cached.segments]? =
      (ctxt.maps[upperBound (Map.above addr) ctxt.maps]?).map Map.segment := by
    rw [upperBound_maps]
    exact List.getElem?_map
  rw [AddressSpace.find, here]
  cases ctxt.maps[upperBound (Map.above addr) ctxt.maps]? with
  | none => rfl
  | some map =>
      by_cases start : map.segment.start ≤ addr
      · simp [Option.filter, start]
      · simp [Option.filter, start]

theorem findMap_of_cached (valid : ctxt.Valid space) (found : valid.cached.find addr = some segment) :
    ∃ it map, ctxt.maps[it]? = some map ∧ map.segment = segment ∧
      ctxt.findMap space addr = (some (it, map), ctxt) := by
  rw [valid.cached_find, Option.map_eq_some_iff] at found
  obtain ⟨map, cached, rfl⟩ := found
  refine ⟨_, map, (Option.filter_eq_some_iff.mp cached).1, rfl, ?_⟩
  rw [findMap]
  dsimp only
  rw [cached]

theorem Valid.filter_eq_none (valid : ctxt.Valid space) (missing : valid.cached.find addr = none) :
    (ctxt.maps[upperBound (Map.above addr) ctxt.maps]?).filter
      (fun map => map.segment.start ≤ addr) = none := by
  rw [valid.cached_find, Option.map_eq_none_iff] at missing
  exact missing

theorem findMap_of_unknown (valid : ctxt.Valid space) (missing : valid.cached.find addr = none)
    (unknown : space.find addr = none) : ctxt.findMap space addr = (none, ctxt) := by
  simp only [findMap, valid.filter_eq_none missing, unknown]

theorem findMap_of_not_cached (valid : ctxt.Valid space) (missing : valid.cached.find addr = none)
    (found : space.find addr = some segment) :
    ctxt.findMap space addr =
      (some (upperBound (Map.above addr) ctxt.maps, Map.new segment segment.name),
        (ctxt.emplaceFile segment.name).emplaceMap (upperBound (Map.above addr) ctxt.maps)
          (Map.new segment segment.name)) := by
  simp only [findMap, valid.filter_eq_none missing, found]

@[simp] theorem maps_emplaceFile (ctxt : Ctxt) (name : List Char) :
    (ctxt.emplaceFile name).maps = ctxt.maps := by
  rw [emplaceFile]
  split
  · rfl
  · rfl

@[simp] theorem file_emplaceFile (ctxt : Ctxt) (name : List Char) :
    (ctxt.emplaceFile name).file = ctxt.file := by
  funext other
  rw [emplaceFile]
  split
  case h_1 => rfl
  case h_2 missing =>
    rw [file, file, OrderedDict.get_update]
    by_cases same : name = other
    · subst same
      rw [if_pos rfl, missing]
      rfl
    · rw [if_neg same]

theorem segments_emplaceFile (ctxt : Ctxt) (name : List Char) :
    (ctxt.emplaceFile name).segments = ctxt.segments := by
  rw [segments, segments, maps_emplaceFile]

theorem Valid.emplaceFile (valid : ctxt.Valid space) (name : List Char) :
    (ctxt.emplaceFile name).Valid space where
  sorted := by
    rw [segments_emplaceFile]
    exact valid.sorted
  known := by
    rw [segments_emplaceFile]
    exact valid.known
  named := by
    rw [maps_emplaceFile]
    exact valid.named
  labelled := by
    rw [file_emplaceFile]
    exact valid.labelled

theorem segments_emplaceMap (ctxt : Ctxt) (it : Nat) (map : Map) :
    (ctxt.emplaceMap it map).segments = emplace it map.segment ctxt.segments :=
  map_emplace Map.segment it map ctxt.maps

/-- A segment that is not cached belongs where the search for an address in it ends. -/
theorem Valid.emplaceMap (valid : ctxt.Valid space)
    (uncached : ∀ other ∈ ctxt.segments, ¬other.Contains addr)
    (found : space.find addr = some segment) :
    (ctxt.emplaceMap (upperBound (Map.above addr) ctxt.maps)
      (Map.new segment segment.name)).Valid space := by
  obtain ⟨member, inside⟩ := AddressSpace.find_eq_some_iff.mp found
  have divides := valid.divides addr
  obtain ⟨start, stop⟩ := Segment.contains_iff.mp inside
  refine ⟨?_, ?_, ?_, valid.labelled⟩
  · rw [segments_emplaceMap]
    refine pairwise_emplace valid.sorted (fun other before => ?_) fun other behind => ?_
    · have below := divides.of_mem_take before
      rw [Segment.above_eq_false_iff] at below
      exact UInt64.lt_iff_toNat_lt.mpr (Nat.lt_of_le_of_lt below stop)
    · have above := divides.of_mem_drop behind
      have cached : other ∈ ctxt.segments := List.mem_of_mem_drop behind
      have different : segment ≠ other := by
        rintro rfl
        exact uncached segment cached inside
      have disjoint := space.disjoint_of_ne member (valid.known other cached) different
      have proper := other.start_lt_stop
      rw [Segment.above_iff] at above
      rw [Segment.disjoint_iff] at disjoint
      apply UInt64.lt_iff_toNat_lt.mpr
      change segment.stop.toNat < other.stop.toNat
      omega
  · rw [segments_emplaceMap]
    intro other listed
    rcases mem_emplace.mp listed with rfl | listed
    · exact member
    · exact valid.known other listed
  · intro map listed
    rcases mem_emplace.mp listed with rfl | listed
    · rfl
    · exact valid.named map listed

structure Finds (space : AddressSpace) (ctxt : Ctxt) (addr : UInt64) (it : Nat) (map : Map)
    (after : Ctxt) : Prop where
  result : ctxt.findMap space addr = (some (it, map), after)
  segment : space.find addr = some map.segment
  place : after.maps[it]? = some map
  valid : after.Valid space
  file : after.file = ctxt.file
  origin : map ∈ ctxt.maps ∨ map.cache = none ∧ ∀ other ∈ ctxt.maps, other.segment ≠ map.segment

theorem findMap_cases (valid : ctxt.Valid space) (addr : UInt64) :
    space.find addr = none ∧ ctxt.findMap space addr = (none, ctxt) ∨
      ∃ it map after, Finds space ctxt addr it map after := by
  cases cached : valid.cached.find addr with
  | some segment =>
      obtain ⟨it, map, place, rfl, result⟩ := findMap_of_cached valid cached
      obtain ⟨member, inside⟩ := AddressSpace.find_eq_some_iff.mp cached
      have found := AddressSpace.find_eq_some_iff.mpr ⟨valid.known map.segment member, inside⟩
      exact .inr ⟨it, map, ctxt, result, found, place, valid, rfl,
        .inl (List.mem_of_getElem? place)⟩
  | none =>
      cases found : space.find addr with
      | none => exact .inl ⟨rfl, findMap_of_unknown valid cached found⟩
      | some segment =>
          have result := findMap_of_not_cached valid cached found
          have uncached := AddressSpace.find_eq_none_iff.mp cached
          have inside := (AddressSpace.find_eq_some_iff.mp found).2
          refine .inr ⟨_, _, _, result, found, ?_, ?_, ?_, .inr ⟨rfl, ?_⟩⟩
          · have bound := (valid.divides addr).inside
            rw [segments, List.length_map] at bound
            rw [Ctxt.emplaceMap, maps_emplaceFile]
            exact getElem?_emplace bound _
          · have kept := (valid.emplaceFile segment.name).emplaceMap
              (by rwa [segments_emplaceFile]) found
            rwa [maps_emplaceFile] at kept
          · exact file_emplaceFile ctxt segment.name
          · rintro other listed rfl
            exact uncached other.segment (List.mem_map_of_mem listed) inside

section Opening

variable {system : System} {it : Nat} {map : Map} {opened : Bool} {after : Ctxt}

theorem name_open (system : System) (file : File) : (file.open system).2.name = file.name := by
  rw [File.open]
  split
  · rfl
  · rfl

theorem open_keeps (system : System) (map : Map) (file : File) :
    (map.open system file).2.1.segment = map.segment ∧
      (map.open system file).2.1.file = map.file ∧ (map.open system file).2.2.name = file.name := by
  have named := name_open system file
  rw [Map.open]
  split
  case h_1 => exact ⟨rfl, rfl, rfl⟩
  case h_2 =>
    split
    case h_1 unopened =>
      rw [unopened] at named
      exact ⟨rfl, rfl, named⟩
    case h_2 opened =>
      rw [opened] at named
      split
      · exact ⟨rfl, rfl, named⟩
      · exact ⟨rfl, rfl, named⟩

theorem segments_set (ctxt : Ctxt) (place : ctxt.maps[it]? = some map) {other : Map}
    (same : other.segment = map.segment) :
    (ctxt.maps.set it other).map Map.segment = ctxt.segments := by
  obtain ⟨bound, rfl⟩ := List.getElem?_eq_some_iff.mp place
  have bound' : it < ctxt.segments.length := by
    rw [segments, List.length_map]
    exact bound
  have here : ctxt.segments[it] = ctxt.maps[it].segment := List.getElem_map Map.segment
  rw [List.map_set, same, ← here]
  exact List.set_getElem_self bound'

theorem file_update (ctxt : Ctxt) (maps : List Map) (name other : List Char) (value : File) :
    (Ctxt.mk (ctxt.files.update name value) maps).file other =
      if name = other then value else ctxt.file other := by
  rw [file, OrderedDict.get_update]
  split
  · rfl
  · rfl

theorem labelled_update (valid : ctxt.Valid space) (maps : List Map) {name : List Char} {value : File}
    (named : value.name = name) (other : List Char) :
    ((Ctxt.mk (ctxt.files.update name value) maps).file other).name = other := by
  rw [file_update]
  split
  case isTrue same => rw [named, same]
  case isFalse => exact valid.labelled other

theorem Valid.openMap (valid : ctxt.Valid space) (place : ctxt.maps[it]? = some map)
    (system : System) : (ctxt.openMap system it map).2.2.Valid space := by
  have kept := open_keeps system map (ctxt.file map.file)
  rw [Ctxt.openMap]
  generalize map.open system (ctxt.file map.file) = result at kept ⊢
  obtain ⟨opened, other, file⟩ := result
  obtain ⟨sameSegment, sameFile, sameName⟩ := kept
  dsimp only at sameSegment sameFile sameName ⊢
  have segments := segments_set ctxt place sameSegment
  refine ⟨?_, ?_, ?_, labelled_update valid _ ?_⟩
  · change ((ctxt.maps.set it other).map Map.segment).Pairwise _
    rw [segments]
    exact valid.sorted
  · change ∀ segment ∈ (ctxt.maps.set it other).map Map.segment, _
    rw [segments]
    exact valid.known
  · intro listed member
    rcases List.mem_or_eq_of_mem_set member with member | rfl
    · exact valid.named listed member
    · rw [sameFile, sameSegment]
      exact valid.named map (List.mem_of_getElem? place)
  · rw [sameName, sameFile]
    exact valid.labelled map.file

end Opening

theorem Valid.findMap (valid : ctxt.Valid space) (addr : UInt64) :
    (ctxt.findMap space addr).2.Valid space := by
  rcases findMap_cases valid addr with ⟨-, result⟩ | ⟨it, map, after, finds⟩
  · rw [result]
    exact valid
  · rw [finds.result]
    exact finds.valid

theorem Valid.accessMem (valid : ctxt.Valid space) (system : System) (stack : StackCtxt)
    (addr : UInt64) (write : Int) :
    (unwAccessMem space system stack ctxt addr write).2.Valid space := by
  rw [unwAccessMem]
  split
  case isTrue => exact valid
  case isFalse =>
    dsimp only
    split
    case isTrue => exact valid
    case isFalse =>
      rcases findMap_cases valid addr with ⟨-, result⟩ | ⟨it, map, after, finds⟩
      · rw [result]
        exact valid
      · have kept := finds.valid.openMap finds.place system
        rw [finds.result]
        dsimp only
        generalize after.openMap system it map = result at kept ⊢
        obtain ⟨opened, other, final⟩ := result
        cases opened with
        | false => exact kept
        | true =>
            dsimp only
            split
            · exact kept
            · exact kept

theorem Valid.openFile (valid : ctxt.Valid space) (name : List Char) (system : System) :
    Valid space { ctxt with
      files := ctxt.files.update name ((ctxt.file name).open system).2 } where
  sorted := valid.sorted
  known := valid.known
  named := valid.named
  labelled := labelled_update valid _ ((name_open system (ctxt.file name)).trans
    (valid.labelled name))

theorem Valid.step (valid : ctxt.Valid space) (operation : Operation) :
    (ctxt.step space operation).Valid space := by
  cases operation with
  | findMap addr => exact valid.findMap addr
  | openFile addr system =>
      have kept := valid.findMap addr
      rw [Ctxt.step]
      generalize ctxt.findMap space addr = result at kept ⊢
      obtain ⟨found, after⟩ := result
      cases found with
      | none => exact kept
      | some found => exact kept.openFile found.2.file system
  | accessMem stack addr write system => exact valid.accessMem system stack addr write

theorem after_valid (space : AddressSpace) (operations : List Operation) :
    (after space operations).Valid space := by
  rw [after]
  induction operations using List.reverseRecOn with
  | nil => exact new_valid space
  | append_singleton operations operation ih =>
      rw [List.foldl_append]
      exact ih.step operation

end Ctxt

/--
The search in the segments gives the one with the address in it.  After any calls the maps are
strictly sorted, and a lookup gives the map of the segment that the search gives.
-/
theorem findMap_transparent (space : AddressSpace) :
    (∀ addr segment, space.find addr = some segment ↔
        segment ∈ space.segments ∧ segment.Contains addr) ∧
      ∀ operations, ((Ctxt.after space operations).maps.Pairwise fun left right =>
          left.segment.stop < right.segment.stop) ∧
        ∀ addr, space.find addr = none ∧
              (Ctxt.after space operations).findMap space addr =
                (none, Ctxt.after space operations) ∨
            ∃ it map later, (Ctxt.after space operations).findMap space addr =
                (some (it, map), later) ∧
              later.maps[it]? = some map ∧ space.find addr = some map.segment := by
  refine ⟨fun addr segment => AddressSpace.find_eq_some_iff, fun operations => ?_⟩
  have valid := Ctxt.after_valid space operations
  have sorted := valid.sorted
  rw [Ctxt.segments, List.pairwise_map] at sorted
  refine ⟨sorted, fun addr => ?_⟩
  rcases Ctxt.findMap_cases valid addr with none | ⟨it, map, later, finds⟩
  · exact .inl none
  · exact .inr ⟨it, map, later, finds.result, finds.place, finds.segment⟩

end Xpedite.Vivify
