import Xpedite.Vivify.MapCache

/-!
Which accesses are right.  The stack is asked first, with sums of 64 bits and without its last
word, then the segment in which the first of the eight bytes lies.
-/

namespace Xpedite.Vivify

open Lib

namespace Ctxt

def descriptor (ctxt : Ctxt) (system : System) (name : List Char) : Int :=
  if (ctxt.file name).fd = -1 then system.open name else (ctxt.file name).fd

/-- The segment can be read: these bytes are mapped already, or would be now. -/
inductive ReadsAs (ctxt : Ctxt) (system : System) (segment : Segment) :
    { bytes : List UInt8 // bytes.length = segment.size.toNat } → Prop
  | cached {file : List Char} {bytes : { bytes : List UInt8 // bytes.length = segment.size.toNat }}
      (member : Map.mk segment file (some bytes) ∈ ctxt.maps) : ReadsAs ctxt system segment bytes
  | opened {bytes : { bytes : List UInt8 // bytes.length = segment.size.toNat }}
      (uncached : ∀ map ∈ ctxt.maps, map.segment = segment → map.cache = none)
      (file : ctxt.descriptor system segment.name ≠ -1)
      (mapped : system.mmap (ctxt.descriptor system segment.name) segment.offset
        segment.size.toNat = some bytes) : ReadsAs ctxt system segment bytes

variable {space : AddressSpace} {ctxt after : Ctxt} {system : System} {addr : UInt64} {it : Nat}
  {map : Map} {segment : Segment}

theorem Valid.map_unique (valid : ctxt.Valid space) {left right : Map} (first : left ∈ ctxt.maps)
    (second : right ∈ ctxt.maps) (same : left.segment = right.segment) : left = right := by
  by_contra different
  have sorted := valid.sorted
  rw [segments, List.pairwise_map] at sorted
  have apart : ctxt.maps.Pairwise fun left right => left.segment ≠ right.segment := by
    refine sorted.imp fun order same => ?_
    rw [same] at order
    exact UInt64.lt_irrefl _ order
  have : Std.Symm fun left right : Map => left.segment ≠ right.segment := ⟨fun _ _ => Ne.symm⟩
  exact apart.forall first second different same

theorem Valid.reads_unique (valid : ctxt.Valid space)
    {bytes other : { bytes : List UInt8 // bytes.length = segment.size.toNat }}
    (reads : ctxt.ReadsAs system segment bytes) (reads' : ctxt.ReadsAs system segment other) :
    bytes = other := by
  cases reads with
  | cached member =>
      cases reads' with
      | cached member' =>
          cases valid.map_unique member member' rfl
          rfl
      | opened uncached => cases uncached _ member rfl
  | opened uncached _ mapped =>
      cases reads' with
      | cached member => cases uncached _ member rfl
      | opened _ _ mapped' => exact Option.some.inj (mapped.symm.trans mapped')

theorem Valid.file_open (valid : ctxt.Valid space) (system : System) (name : List Char) :
    (ctxt.file name).open system = (ctxt.descriptor system name != -1,
      { ctxt.file name with fd := ctxt.descriptor system name }) := by
  have named := valid.labelled name
  rw [File.open, descriptor]
  split
  case isTrue => simp only [named]
  case isFalse opened => rw [bne_iff_ne.mpr opened]

theorem Finds.openMap_cases (finds : Finds space ctxt addr it map after) (valid : ctxt.Valid space)
    (system : System) :
    (∃ bytes final, ctxt.ReadsAs system map.segment bytes ∧
        after.openMap system it map = (true, ⟨map.segment, map.file, some bytes⟩, final)) ∨
      (∀ bytes, ¬ctxt.ReadsAs system map.segment bytes) ∧
        ∃ other final, after.openMap system it map = (false, other, final) := by
  obtain ⟨result, found, place, afterValid, sameFile, origin⟩ := finds
  obtain ⟨segment, name, cache⟩ := map
  obtain rfl : name = segment.name := afterValid.named _ (List.mem_of_getElem? place)
  cases cache with
  | some bytes =>
      rcases origin with member | ⟨impossible, -⟩
      · exact .inl ⟨bytes, _, .cached member, rfl⟩
      · cases impossible
  | none =>
      have uncached : ∀ other ∈ ctxt.maps, other.segment = segment → other.cache = none := by
        intro other listed same
        rcases origin with member | ⟨-, missing⟩
        · rw [valid.map_unique listed member same]
        · exact absurd same (missing other listed)
      have opens := valid.file_open system segment.name
      rw [openMap, Map.open, sameFile]
      dsimp only
      rw [opens]
      by_cases file : ctxt.descriptor system segment.name = -1
      · refine .inr ⟨fun bytes reads => ?_, ?_⟩
        · cases reads with
          | cached member => cases uncached _ member rfl
          | opened _ open_ => exact open_ file
        · rw [file]
          exact ⟨_, _, rfl⟩
      · rw [bne_iff_ne.mpr file]
        dsimp only
        cases mapped : system.mmap (ctxt.descriptor system segment.name) segment.offset
            segment.size.toNat with
        | none =>
            refine .inr ⟨fun bytes reads => ?_, _, _, rfl⟩
            cases reads with
            | cached member => cases uncached _ member rfl
            | opened _ _ mapped' => cases mapped.symm.trans mapped'
        | some bytes => exact .inl ⟨bytes, _, .opened uncached file mapped, rfl⟩

end Ctxt

def StackCtxt.Holds (stack : StackCtxt) (addr : UInt64) : Prop :=
  stack.sp.toNat ≤ addr.toNat ∧ addr.toNat + 8 ≤ stack.sp.toNat + stack.data.length

/-- The word is the one captured, or if there is none that of a segment with all its bytes in it. -/
structure AccessRight (space : AddressSpace) (system : System) (stack : StackCtxt) (ctxt : Ctxt)
    (addr : UInt64) (access : Access) : Prop where
  captured : stack.Holds addr →
    access = .success (wordAt stack.data (addr.toNat - stack.sp.toNat))
  mapped : ¬stack.Holds addr → access = .einval ∨ ∃ segment ∈ space.segments, ∃ bytes,
    ctxt.ReadsAs system segment bytes ∧ segment.start.toNat ≤ addr.toNat ∧
      addr.toNat + 8 ≤ segment.stop.toNat ∧
      access = .success (wordAt bytes.val (addr.toNat - segment.start.toNat))

inductive AccessFine (space : AddressSpace) (system : System) (stack : StackCtxt) (ctxt : Ctxt)
    (addr : UInt64) : Prop
  | captured (holds : stack.Holds addr)
      (inner : addr.toNat + 8 < stack.sp.toNat + stack.data.length)
  -- the last word is looked for in the segments, where it may be the same
  | last (holds : stack.Holds addr) {segment : Segment} (member : segment ∈ space.segments) {bytes}
      (reads : ctxt.ReadsAs system segment bytes) (start : segment.start.toNat ≤ addr.toNat)
      (stop : addr.toNat + 8 ≤ segment.stop.toNat)
      (same : wordAt bytes.val (addr.toNat - segment.start.toNat) =
        wordAt stack.data (addr.toNat - stack.sp.toNat))
  | mapped (outside : ¬stack.Holds addr)
      (noWrap : ¬(stack.sp.toNat ≤ addr.toNat ∧ 2 ^ 64 ≤ addr.toNat + 8 ∧
        addr.toNat + 8 - 2 ^ 64 < stack.sp.toNat + stack.data.length))
      (whole : ∀ segment ∈ space.segments, segment.Contains addr →
        (∃ bytes, ctxt.ReadsAs system segment bytes) → addr.toNat + 8 ≤ segment.stop.toNat)

section Access

variable {space : AddressSpace} {ctxt : Ctxt} {system : System} {stack : StackCtxt} {addr : UInt64}

theorem StackCtxt.toNat_stop (stack : StackCtxt) :
    (stack.sp + stack.size).toNat = stack.sp.toNat + stack.data.length := by
  have fits := stack.fits
  rw [StackCtxt.size, UInt64.toNat_add, UInt64.toNat_ofNat']
  omega

theorem toNat_sub {left right : UInt64} (order : right.toNat ≤ left.toNat) :
    (left - right).toNat = left.toNat - right.toNat :=
  UInt64.toNat_sub_of_le left right (UInt64.le_iff_toNat_le.mpr order)

theorem inStack_iff (stack : StackCtxt) (addr : UInt64) :
    stack.sp ≤ addr ∧ addr + 8 < stack.sp + stack.size ↔
      stack.sp.toNat ≤ addr.toNat ∧
        (addr.toNat + 8) % 2 ^ 64 < stack.sp.toNat + stack.data.length := by
  rw [UInt64.le_iff_toNat_le, UInt64.lt_iff_toNat_lt, stack.toNat_stop, UInt64.toNat_add]
  rfl

theorem unwAccessMem_of_inStack (ctxt : Ctxt)
    (inStack : stack.sp ≤ addr ∧ addr + 8 < stack.sp + stack.size) :
    (unwAccessMem space system stack ctxt addr 0).1 = stack.read (addr - stack.sp) := by
  rw [unwAccessMem, if_neg (not_not.mpr rfl)]
  dsimp only
  rw [if_pos inStack]

theorem read_eq {segment : Segment} (file : List Char)
    (bytes : { bytes : List UInt8 // bytes.length = segment.size.toNat })
    (inside : segment.Contains addr) :
    (Map.mk segment file (some bytes)).read (addr - segment.start) =
      if addr.toNat + 8 ≤ segment.stop.toNat then
        .success (wordAt bytes.val (addr.toNat - segment.start.toNat))
      else .assertionFailed := by
  obtain ⟨start, stop⟩ := Segment.contains_iff.mp inside
  have proper := segment.start_lt_stop
  have size : segment.size.toNat = segment.stop.toNat - segment.start.toNat :=
    toNat_sub (Nat.le_of_lt proper)
  rw [Map.read]
  dsimp only
  rw [toNat_sub start]
  by_cases whole : addr.toNat + 8 ≤ segment.stop.toNat
  · rw [if_pos whole, if_pos (by omega)]
  · rw [if_neg whole, if_neg (by omega)]

theorem unwAccessMem_cases (valid : ctxt.Valid space)
    (outside : ¬(stack.sp ≤ addr ∧ addr + 8 < stack.sp + stack.size)) :
    (∃ segment ∈ space.segments, segment.Contains addr ∧ ∃ bytes,
        ctxt.ReadsAs system segment bytes ∧ (unwAccessMem space system stack ctxt addr 0).1 =
          if addr.toNat + 8 ≤ segment.stop.toNat then
            .success (wordAt bytes.val (addr.toNat - segment.start.toNat))
          else .assertionFailed) ∨
      (∀ segment ∈ space.segments, segment.Contains addr →
          ∀ bytes, ¬ctxt.ReadsAs system segment bytes) ∧
        (unwAccessMem space system stack ctxt addr 0).1 = .einval := by
  rw [unwAccessMem, if_neg (not_not.mpr rfl)]
  dsimp only
  rw [if_neg outside]
  rcases Ctxt.findMap_cases valid addr with ⟨none, result⟩ | ⟨it, map, after, finds⟩
  · rw [result]
    refine .inr ⟨fun segment member inside => ?_, rfl⟩
    exact absurd inside (AddressSpace.find_eq_none_iff.mp none segment member)
  · obtain ⟨member, inside⟩ := AddressSpace.find_eq_some_iff.mp finds.segment
    rw [finds.result]
    dsimp only
    rcases finds.openMap_cases valid system with ⟨bytes, final, reads, opened⟩ | ⟨never, other, final, refused⟩
    · rw [opened]
      dsimp only
      rw [if_pos inside.1]
      exact .inl ⟨map.segment, member, inside, bytes, reads, read_eq map.file bytes inside⟩
    · rw [refused]
      refine .inr ⟨fun segment listed within bytes reads => ?_, rfl⟩
      have same := AddressSpace.find_eq_some_iff.mpr ⟨listed, within⟩
      rw [finds.segment] at same
      cases same
      exact never bytes reads

theorem accessRight_iff_of_holds (valid : ctxt.Valid space) (holds : stack.Holds addr) :
    AccessRight space system stack ctxt addr (unwAccessMem space system stack ctxt addr 0).1 ↔
      AccessFine space system stack ctxt addr := by
  have holds' := holds
  obtain ⟨start, stop⟩ := holds'
  have fits := stack.fits
  by_cases inner : addr.toNat + 8 < stack.sp.toNat + stack.data.length
  · have inStack := (inStack_iff stack addr).mpr ⟨start, by omega⟩
    refine iff_of_true ⟨fun _ => ?_, fun outside => absurd holds outside⟩ (.captured holds inner)
    rw [unwAccessMem_of_inStack ctxt inStack, StackCtxt.read, toNat_sub start, if_pos (by omega)]
  · have outside : ¬(stack.sp ≤ addr ∧ addr + 8 < stack.sp + stack.size) := by
      rw [inStack_iff]
      omega
    rcases @unwAccessMem_cases space ctxt system stack addr valid outside with
      ⟨segment, member, inside, bytes, reads, result⟩ | ⟨never, result⟩
    · rw [result]
      constructor
      · intro right
        have word := right.captured holds
        by_cases whole : addr.toNat + 8 ≤ segment.stop.toNat
        · rw [if_pos whole] at word
          exact .last holds member reads (Segment.contains_iff.mp inside).1 whole
            (Access.success.inj word)
        · rw [if_neg whole] at word
          cases word
      · intro fine
        cases fine with
        | captured _ within => exact absurd within inner
        | mapped elsewhere => exact absurd holds elsewhere
        | @last _ other listed otherBytes reads' start' stop' same =>
            have inside' : other.Contains addr := Segment.contains_iff.mpr ⟨start', by omega⟩
            obtain rfl := AddressSpace.eq_of_contains member inside listed inside'
            cases valid.reads_unique reads reads'
            refine ⟨fun _ => ?_, fun elsewhere => absurd holds elsewhere⟩
            rw [if_pos stop', same]
    · rw [result]
      refine iff_of_false (fun right => ?_) fun fine => ?_
      · cases right.captured holds
      · cases fine with
        | captured _ within => exact inner within
        | mapped elsewhere => exact elsewhere holds
        | last _ member reads start' stop' =>
            exact never _ member (Segment.contains_iff.mpr ⟨start', by omega⟩) _ reads

theorem accessRight_iff_of_not_holds (valid : ctxt.Valid space) (outside : ¬stack.Holds addr) :
    AccessRight space system stack ctxt addr (unwAccessMem space system stack ctxt addr 0).1 ↔
      AccessFine space system stack ctxt addr := by
  have fits := stack.fits
  have small := addr.toNat_lt
  by_cases inStack : stack.sp ≤ addr ∧ addr + 8 < stack.sp + stack.size
  · have wraps := (inStack_iff stack addr).mp inStack
    have large : 2 ^ 64 ≤ addr.toNat + 8 := by
      by_contra below
      exact outside ⟨wraps.1, by omega⟩
    have far : ¬(addr - stack.sp).toNat + 8 ≤ stack.data.length := by
      rw [toNat_sub wraps.1]
      omega
    rw [unwAccessMem_of_inStack ctxt inStack, StackCtxt.read, if_neg far]
    refine iff_of_false (fun right => ?_) fun fine => ?_
    · rcases right.mapped outside with failed | ⟨_, _, _, _, _, _, word⟩
      · cases failed
      · cases word
    · cases fine with
      | captured holds => exact outside holds
      | last holds => exact outside holds
      | mapped _ noWrap => exact noWrap ⟨wraps.1, large, by omega⟩
  · have noWrap : ¬(stack.sp.toNat ≤ addr.toNat ∧ 2 ^ 64 ≤ addr.toNat + 8 ∧
        addr.toNat + 8 - 2 ^ 64 < stack.sp.toNat + stack.data.length) := by
      rw [inStack_iff] at inStack
      omega
    rcases @unwAccessMem_cases space ctxt system stack addr valid inStack with
      ⟨segment, member, inside, bytes, reads, result⟩ | ⟨never, result⟩
    · rw [result]
      constructor
      · intro right
        by_cases whole : addr.toNat + 8 ≤ segment.stop.toNat
        · refine .mapped outside noWrap fun other listed inside' _ => ?_
          obtain rfl := AddressSpace.eq_of_contains member inside listed inside'
          exact whole
        · have ends := right.mapped outside
          rw [if_neg whole] at ends
          rcases ends with failed | ⟨_, _, _, _, _, _, word⟩
          · cases failed
          · cases word
      · intro fine
        cases fine with
        | captured holds => exact absurd holds outside
        | last holds => exact absurd holds outside
        | mapped _ _ whole =>
            have stop := whole segment member inside ⟨bytes, reads⟩
            refine ⟨fun holds => absurd holds outside, fun _ => .inr ?_⟩
            exact ⟨segment, member, bytes, reads, (Segment.contains_iff.mp inside).1, stop,
              if_pos stop⟩
    · rw [result]
      refine iff_of_true ⟨fun holds => absurd holds outside, fun _ => .inl rfl⟩ ?_
      refine .mapped outside noWrap fun segment member inside readable => ?_
      obtain ⟨bytes, reads⟩ := readable
      exact absurd reads (never segment member inside bytes)

end Access

/--
In whatever state the maps are, an access is right exactly in these cases: it is for a word of the
stack before the last one, or the last one is in a segment too; or it is for no word of the stack,
does not wrap around into it, and is not for a word that leaves a segment which can be read.
-/
theorem unwAccessMem_right_iff (space : AddressSpace) (operations : List Operation)
    (system : System) (stack : StackCtxt) (addr : UInt64) :
    AccessRight space system stack (Ctxt.after space operations) addr
        (unwAccessMem space system stack (Ctxt.after space operations) addr 0).1 ↔
      AccessFine space system stack (Ctxt.after space operations) addr := by
  have valid := Ctxt.after_valid space operations
  by_cases holds : stack.Holds addr
  · exact accessRight_iff_of_holds valid holds
  · exact accessRight_iff_of_not_holds valid holds

section OneWord

def noSegments : AddressSpace := ⟨[], .nil, .nil⟩

def noFiles : System where
  «open» _ := -1
  mmap _ _ _ := none

def oneWord : StackCtxt := ⟨4096, [1, 0, 0, 0, 0, 0, 0, 0], Nat.le_of_ble_eq_true rfl⟩

/-- The only word of the stack is not found. -/
theorem lastWord_missed :
    ¬∀ (space : AddressSpace) (operations : List Operation) (system : System) (stack : StackCtxt)
      (addr : UInt64), AccessRight space system stack (Ctxt.after space operations) addr
        (unwAccessMem space system stack (Ctxt.after space operations) addr 0).1 := by
  intro all
  have right := all noSegments [] noFiles oneWord 4096
  have missed : (unwAccessMem noSegments noFiles oneWord (Ctxt.after noSegments []) 4096 0).1 =
      .einval := rfl
  have word := right.captured ⟨Nat.le_refl _, Nat.le_refl _⟩
  rw [missed] at word
  cases word

-- the end of the last word of all wraps around, to before the end of the stack
example : (unwAccessMem noSegments noFiles oneWord .new 0xfffffffffffffff8 0).1 = .outOfBounds := rfl

end OneWord

end Xpedite.Vivify
