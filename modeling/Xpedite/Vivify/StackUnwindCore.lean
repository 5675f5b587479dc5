import Xpedite.Lib.Memory
import Xpedite.Lib.OrderedDict
import Xpedite.Lib.UpperBound

/-!
Reading the memory of another process while its stack is unwound: `AddressSpace.H`,
`AddressSpace.C`, `MMap.H`, `MMap.C` and `StackUnwind.C` in `vivify`.  Pointers to segments and
files are the segments themselves and the names of the files.
-/

namespace Xpedite.Vivify

open Lib

inductive SegmentType where
  | none
  | self
  | file
  | special
  | anonymous
  | hugePage
  deriving DecidableEq

structure Segment where
  name : List Char
  start : UInt64
  stop : UInt64
  offset : UInt64
  readable : Bool
  writable : Bool
  executable : Bool
  «private» : Bool
  type : SegmentType
  nonempty : start < stop
  deriving DecidableEq

namespace Segment

def size (segment : Segment) : UInt64 := segment.stop - segment.start

def Contains (segment : Segment) (addr : UInt64) : Prop :=
  segment.start ≤ addr ∧ addr < segment.stop

def Disjoint (left right : Segment) : Prop :=
  left.stop ≤ right.start ∨ right.stop ≤ left.start

end Segment

structure AddressSpace where
  segments : List Segment
  disjoint : segments.Pairwise Segment.Disjoint
  sorted : segments.Pairwise fun left right => left.stop ≤ right.stop

theorem Segment.Disjoint.symm {left right : Segment} (disjoint : left.Disjoint right) :
    right.Disjoint left := Or.symm disjoint

/-- What the constructor makes of the segments it has read; no two of them end in one place. -/
def AddressSpace.new (segments : List Segment) (disjoint : segments.Pairwise Segment.Disjoint) :
    AddressSpace where
  segments := segments.mergeSort fun left right => left.stop ≤ right.stop
  disjoint := ((List.mergeSort_perm segments _).pairwise_iff Segment.Disjoint.symm).mpr disjoint
  sorted := by
    refine (List.pairwise_mergeSort (fun _ _ _ first second => ?_) (fun left right => ?_)
      segments).imp of_decide_eq_true
    · exact decide_eq_true (UInt64.le_trans (of_decide_eq_true first) (of_decide_eq_true second))
    · rw [Bool.or_eq_true, decide_eq_true_eq, decide_eq_true_eq]
      exact UInt64.le_total left.stop right.stop

/-- `operator<(uintptr_t, const Segment&)` -/
def Segment.above (addr : UInt64) (segment : Segment) : Bool := addr < segment.stop

def AddressSpace.find (space : AddressSpace) (addr : UInt64) : Option Segment :=
  match space.segments[upperBound (Segment.above addr) space.segments]? with
  | some segment => if segment.start ≤ addr then some segment else none
  | none => none

/-- What the system answers during a call: a mapping has as many bytes as were asked for. -/
structure System where
  «open» : List Char → Int
  mmap : Int → UInt64 → (size : Nat) → Option { bytes : List UInt8 // bytes.length = size }

structure File where
  name : List Char
  fd : Int

namespace File

def new (name : List Char) : File := ⟨name, -1⟩

def «open» (system : System) (file : File) : Bool × File :=
  if file.fd = -1 then
    let fd := system.open file.name
    (fd != -1, { file with fd := fd })
  else (true, file)

end File

structure Map where
  segment : Segment
  file : List Char
  cache : Option { bytes : List UInt8 // bytes.length = segment.size.toNat }

/-- How an access ends; `outOfBounds` stands for a read of bytes that are not there. -/
inductive Access where
  | success (word : UInt64)
  | einval
  | outOfBounds
  | assertionFailed
  deriving DecidableEq

def wordAt (bytes : List UInt8) (offset : Nat) : UInt64 :=
  UInt64.ofNat (numberOf ((bytes.drop offset).take 8))

namespace Map

def new (segment : Segment) (file : List Char) : Map := ⟨segment, file, none⟩

def above (addr : UInt64) (map : Map) : Bool := map.segment.above addr

def «open» (system : System) (map : Map) (file : File) : Bool × Map × File :=
  match map.cache with
  | some _ => (true, map, file)
  | none =>
      match file.open system with
      | (false, file) => (false, map, file)
      | (true, file) =>
          match system.mmap file.fd map.segment.offset map.segment.size.toNat with
          | none => (false, map, file)
          | some bytes => (true, { map with cache := some bytes }, file)

def read (map : Map) (offset : UInt64) : Access :=
  match map.cache with
  | none => .assertionFailed
  | some bytes =>
      if offset.toNat + 8 ≤ map.segment.size.toNat then .success (wordAt bytes.val offset.toNat)
      else .assertionFailed

end Map

structure StackCtxt where
  sp : UInt64
  data : List UInt8
  fits : sp.toNat + data.length < 2 ^ 64

namespace StackCtxt

def size (stack : StackCtxt) : UInt64 := UInt64.ofNat stack.data.length

def read (stack : StackCtxt) (offset : UInt64) : Access :=
  if offset.toNat + 8 ≤ stack.data.length then .success (wordAt stack.data offset.toNat)
  else .outOfBounds

end StackCtxt

structure Ctxt where
  files : OrderedDict (List Char) File
  maps : List Map

namespace Ctxt

def new : Ctxt := ⟨[], []⟩

def emplaceFile (ctxt : Ctxt) (name : List Char) : Ctxt :=
  match ctxt.files.get name with
  | some _ => ctxt
  | none => { ctxt with files := ctxt.files.update name (File.new name) }

def emplaceMap (ctxt : Ctxt) (it : Nat) (map : Map) : Ctxt :=
  { ctxt with maps := emplace it map ctxt.maps }

/-- The file of a map has been there since the map was made. -/
def file (ctxt : Ctxt) (name : List Char) : File := (ctxt.files.get name).getD (File.new name)

/-- The map with its place in the vector; nothing stands for `nullptr`. -/
def findMap (space : AddressSpace) (ctxt : Ctxt) (addr : UInt64) : Option (Nat × Map) × Ctxt :=
  let it := upperBound (Map.above addr) ctxt.maps
  let cached := (ctxt.maps[it]?).filter fun map => map.segment.start ≤ addr
  match cached with
  | some map => (some (it, map), ctxt)
  | none =>
      match space.find addr with
      | none => (none, ctxt)
      | some segment =>
          let map := Map.new segment segment.name
          (some (it, map), (ctxt.emplaceFile segment.name).emplaceMap it map)

/-- `l_map->open()` -/
def openMap (system : System) (ctxt : Ctxt) (it : Nat) (map : Map) : Bool × Map × Ctxt :=
  match map.open system (ctxt.file map.file) with
  | (opened, map, file) =>
      (opened, map, ⟨ctxt.files.update map.file file, ctxt.maps.set it map⟩)

end Ctxt

def unwAccessMem (space : AddressSpace) (system : System) (stack : StackCtxt) (ctxt : Ctxt)
    (addr : UInt64) (write : Int) : Access × Ctxt :=
  if write ≠ 0 then (.einval, ctxt)
  else
    let start := stack.sp
    let stop := start + stack.size
    if start ≤ addr ∧ addr + 8 < stop then (stack.read (addr - start), ctxt)
    else
      match ctxt.findMap space addr with
      | (none, ctxt) => (.einval, ctxt)
      | (some (it, map), ctxt) =>
          match ctxt.openMap system it map with
          | (false, _, ctxt) => (.einval, ctxt)
          | (true, map, ctxt) =>
              if map.segment.start ≤ addr then (map.read (addr - map.segment.start), ctxt)
              else (.assertionFailed, ctxt)

/-- The calls that work on the maps; `unwFindProcInfo` also opens the file of the map it finds. -/
inductive Operation where
  | findMap (addr : UInt64)
  | openFile (addr : UInt64) (system : System)
  | accessMem (stack : StackCtxt) (addr : UInt64) (write : Int) (system : System)

namespace Ctxt

def step (space : AddressSpace) (ctxt : Ctxt) : Operation → Ctxt
  | .findMap addr => (ctxt.findMap space addr).2
  | .openFile addr system =>
      match ctxt.findMap space addr with
      | (none, ctxt) => ctxt
      | (some (_, map), ctxt) =>
          { ctxt with
            files := ctxt.files.update map.file ((ctxt.file map.file).open system).2 }
  | .accessMem stack addr write system => (unwAccessMem space system stack ctxt addr write).2

def after (space : AddressSpace) (operations : List Operation) : Ctxt :=
  operations.foldl (step space) new

end Ctxt

end Xpedite.Vivify
