import Xpedite.Samples.SampleCore
import Xpedite.Transport.FramerCore

/-!
Samples files: `Persister.H`, `Persister.C`, `ProbeInfo.H` and `SamplesLoader.H`.  A reader sees
the pages of the file mapped at an address, with bytes of no account behind its end, and is
killed where it reads behind what is mapped.
-/

namespace Xpedite.Samples

open Lib

structure Timeval where
  seconds : UInt64
  microseconds : UInt64

/-- The characters of a C string, up to the null character. -/
abbrev CString : Type := { text : List UInt8 // 0 ∉ text }

structure Probe where
  rawRecorderCallSite : UInt64
  attr : UInt32
  id : UInt32
  name : CString
  file : CString
  func : CString
  line : UInt32

/-- A `Name` with its size, which counts the null character. -/
def nameBytes (name : CString) : List UInt8 := name.val ++ [0]

def nameSize (name : CString) : Nat := (nameBytes name).length

def sizeofProbeInfo : Nat := 36

def sizeofFileHeader : Nat := 52

def sizeofSegmentHeader : Nat := 32

def fileSignature : Nat := 0xC01DC01DC0FFEEEE

def fileVersion : Nat := 0x0210

def minCompatibleVersion : Nat := 0x0200

def segmentSignature : Nat := 0x5CA1AB1E887A57EF

def storeTime (memory : Memory) (address : Nat) (time : Timeval) : Memory :=
  (memory.store64 address time.seconds).store64 (address + 8) time.microseconds

section FileHeader

variable (memory : Memory) (this : Nat)

def FileHeader.version : Nat := memory.load (this + 8) 8

def FileHeader.probeCount : Nat := memory.load (this + 44) 4

def FileHeader.probeInfoBufSize : Nat := memory.load (this + 48) 4

def FileHeader.size : Nat := sizeofFileHeader + FileHeader.probeInfoBufSize memory this

def FileHeader.construct (time : Timeval) (tscHz : UInt64) (pmcCount : UInt32) : Memory :=
  let memory := memory.store this 8 fileSignature
  let memory := memory.store (this + 8) 8 fileVersion
  let memory := storeTime memory (this + 16) time
  let memory := memory.store64 (this + 32) tscHz
  let memory := memory.store (this + 40) 4 pmcCount.toNat
  let memory := memory.store (this + 44) 4 0
  memory.store (this + 48) 4 0

def FileHeader.isValid : Bool :=
  memory.load this 8 == fileSignature &&
    decide (minCompatibleVersion ≤ FileHeader.version memory this) &&
    decide (FileHeader.version memory this ≤ fileVersion)

end FileHeader

section ProbeInfo

variable (memory : Memory) (this : Nat)

def ProbeInfo.dataSize : Nat := memory.load (this + 32) 4

def ProbeInfo.size : Nat := sizeofProbeInfo + ProbeInfo.dataSize memory this

def ProbeInfo.addName (offsetField : Nat) (name : CString) : Memory :=
  let size := ProbeInfo.dataSize memory this
  let memory := memory.store (this + offsetField) 4 size
  let memory := memory.write (this + sizeofProbeInfo + size) (nameBytes name)
  memory.store (this + 32) 4 (size + nameSize name)

def ProbeInfo.construct (probe : Probe) : Memory :=
  let memory := memory.store64 this probe.rawRecorderCallSite
  let memory := memory.store (this + 8) 4 probe.attr.toNat
  let memory := memory.store (this + 12) 4 probe.id.toNat
  let memory := memory.store (this + 28) 4 probe.line.toNat
  let memory := memory.store (this + 32) 4 0
  let memory := ProbeInfo.addName memory this 16 probe.name
  let memory := ProbeInfo.addName memory this 20 probe.file
  ProbeInfo.addName memory this 24 probe.func

def cString (memory : Memory) : Nat → Nat → List UInt8
  | 0, _ => []
  | limit + 1, address =>
      if memory address = 0 then [] else memory address :: cString memory limit (address + 1)

def ProbeInfo.text (limit offsetField : Nat) : List UInt8 :=
  cString memory limit (this + sizeofProbeInfo + memory.load (this + offsetField) 4)

structure ProbeInfo where
  callSite : UInt64
  attr : Nat
  id : Nat
  probeName : List UInt8
  fileName : List UInt8
  functionName : List UInt8
  lineNo : Nat
  deriving DecidableEq

/-- No name is longer than `limit`, the size of the file. -/
def ProbeInfo.at (limit : Nat) : ProbeInfo where
  callSite := memory.load64 this
  attr := memory.load (this + 8) 4
  id := memory.load (this + 12) 4
  probeName := ProbeInfo.text memory this limit 16
  fileName := ProbeInfo.text memory this limit 20
  functionName := ProbeInfo.text memory this limit 24
  lineNo := memory.load (this + 28) 4

end ProbeInfo

def Probe.info (probe : Probe) : ProbeInfo where
  callSite := probe.rawRecorderCallSite
  attr := probe.attr.toNat
  id := probe.id.toNat
  probeName := probe.name.val
  fileName := probe.file.val
  functionName := probe.func.val
  lineNo := probe.line.toNat

/-- `_buffer`, with the header `_hdr` at its beginning. -/
structure Persister where
  buffer : Memory
  capacity : Nat

namespace Persister

variable (persister : Persister)

def hdrSize : Nat := FileHeader.size persister.buffer 0

def freeSize : Nat := persister.capacity - persister.hdrSize

def resizeBuffer (objSize : Nat) : Persister :=
  let target := persister.hdrSize + objSize
  { buffer := fun place => if place < persister.capacity then persister.buffer place else 0
    capacity := Transport.Buffer.doubleTo target target persister.capacity }

/-- `FileHeader::add`, where both counts wrap at 32 bits. -/
def addProbe (probe : Probe) : Persister :=
  let count := FileHeader.probeCount persister.buffer 0
  let bufSize := FileHeader.probeInfoBufSize persister.buffer 0
  let memory := persister.buffer.store 44 4 (count + 1)
  let this := sizeofFileHeader + bufSize
  let memory := ProbeInfo.construct memory this probe
  { persister with buffer := memory.store 48 4 (bufSize + ProbeInfo.size memory this) }

def objSize (probe : Probe) : Nat :=
  sizeofProbeInfo + nameSize probe.name + nameSize probe.file + nameSize probe.func

def register (probe : Probe) : Persister :=
  let persister :=
    if persister.freeSize < objSize probe then persister.resizeBuffer (objSize probe)
    else persister
  persister.addProbe probe

def new (time : Timeval) (tscHz : UInt64) (pmcCount : UInt32) (probes : List Probe) : Persister :=
  probes.foldl register
    ⟨FileHeader.construct (fun _ => 0) 0 time tscHz pmcCount, 2 * 1024 * 1024⟩

/-- One call of `write` takes no more bytes than this, and the callers do not look at how many it
took. -/
def maxWrite : Nat := 0x7ffff000

def write (file bytes : List UInt8) : List UInt8 := file ++ bytes.take maxWrite

def persistHeader (file : List UInt8) : List UInt8 :=
  write file (persister.buffer.read 0 persister.hdrSize)

end Persister

def SegmentHeader.bytes (time : Timeval) (size seq : Nat) : List UInt8 :=
  bytesOf 8 segmentSignature ++ bytesOf 8 time.seconds.toNat ++ bytesOf 8 time.microseconds.toNat ++
    bytesOf 4 size ++ bytesOf 4 seq

/-- `persistData`; `batchCount` is the number of the segment written before. -/
def persistData (state : List UInt8 × Nat) (time : Timeval) (memory : Memory) (start stop : Nat) :
    List UInt8 × Nat :=
  if start = 0 ∨ start = stop then state
  else
    let size := (stop - start) % 2 ^ 32
    let batchCount := state.2 + 1
    (Persister.write (Persister.write state.1 (SegmentHeader.bytes time size batchCount))
      (memory.read start size), batchCount)

/-- Samples recorded from an address on, where the buffer had the bytes of `memory`. -/
structure Batch where
  time : Timeval
  memory : Memory
  start : Nat
  samples : List Sample
  located : start ≠ 0
  recorded : samples ≠ []

def persistBatch (state : List UInt8 × Nat) (batch : Batch) : List UInt8 × Nat :=
  let (memory, stop) := layOut batch.memory batch.start batch.samples
  persistData state batch.time memory batch.start stop

def samplesFile (persister : Persister) (batchCount : Nat) (batches : List Batch) : List UInt8 :=
  (batches.foldl persistBatch (persister.persistHeader [], batchCount)).1

def pageSize : Nat := 4096

/-- The bytes of the pages that a mapping of so many bytes takes. -/
def pagesOf (size : Nat) : Nat := (size + pageSize - 1) / pageSize * pageSize

def mappedSize (file : List UInt8) : Nat := file.length % 2 ^ 32

def mapped (base : Nat) (file : List UInt8) (beyond : Memory) : Memory :=
  beyond.write base (file.take (pagesOf (mappedSize file)))

structure SamplesLoader where
  memory : Memory
  fileHeader : Nat
  size : Nat
  -- where the bytes end that can be read
  readable : Nat

namespace SamplesLoader

/-- What the loop of `forEachCallSiteInfo` visits and where it ends; there is no result where the
size of a record cannot be read. -/
def visit (memory : Memory) (readable limit : Nat) : Nat → Nat → Option (List ProbeInfo × Nat)
  | 0, this => some ([], this)
  | count + 1, this =>
      if readable < this + sizeofProbeInfo then none
      else
        (visit memory readable limit count (this + ProbeInfo.size memory this)).map fun visited =>
          (ProbeInfo.at memory this limit :: visited.1, visited.2)

variable (loader : SamplesLoader)

def samplesEnd : Nat := loader.fileHeader + loader.size

def forEachCallSiteInfo : Option (List ProbeInfo × Nat) :=
  let probes := loader.fileHeader + sizeofFileHeader
  if FileHeader.version loader.memory loader.fileHeader < fileVersion then some ([], probes)
  else
    visit loader.memory loader.readable loader.size
      (FileHeader.probeCount loader.memory loader.fileHeader) probes

/-- `load`, for a file behind whose pages `room` bytes can be read; `none` is the exception for a
header that is not valid, or from `mmap`, which does not map nothing, or the end of the process. -/
def load (base : Nat) (file : List UInt8) (beyond : Memory) (room : Nat) : Option SamplesLoader :=
  let size := mappedSize file
  let loader : SamplesLoader := ⟨mapped base file beyond, base, size, base + pagesOf size + room⟩
  if size = 0 then none
  else if FileHeader.isValid loader.memory base then
    loader.forEachCallSiteInfo.map fun _ => loader
  else none

def segmentHeader : Nat :=
  if FileHeader.version loader.memory loader.fileHeader < fileVersion then
    loader.fileHeader +
      (sizeofFileHeader - 4 + FileHeader.probeCount loader.memory loader.fileHeader * 16)
  else
    loader.fileHeader + sizeofFileHeader +
      FileHeader.probeInfoBufSize loader.memory loader.fileHeader

structure Iterator where
  samples : Nat
  size : Nat

/-- `SegmentHeader::samples`, which reads the size at the end of the header. -/
def segment (address : Nat) : Option Iterator :=
  if loader.readable < address + 28 then none
  else some ⟨address + sizeofSegmentHeader, loader.memory.load (address + 24) 4⟩

def first : Option Iterator :=
  if loader.segmentHeader < loader.samplesEnd then loader.segment loader.segmentHeader
  else some ⟨loader.samplesEnd, 0⟩

/-- `Sample::size` reads the word with the number of counters of any sample. -/
def sizeEnd (memory : Memory) (this : Nat) : Nat := this + 24 + 16 * (hasData memory this).toNat

/-- `operator++`, with the size left in the segment as an unsigned number. -/
def advance (iterator : Iterator) : Option Iterator :=
  if iterator.samples < loader.samplesEnd then
    if loader.readable < sizeEnd loader.memory iterator.samples then none
    else
      let size := (iterator.size + 2 ^ 32 - Samples.size loader.memory iterator.samples) % 2 ^ 32
      let samples := next loader.memory iterator.samples
      if size = 0 ∧ samples < loader.samplesEnd then loader.segment samples
      else some ⟨samples, size⟩
  else some iterator

/-- There is no result if the end is not met within so many rounds. -/
def iterateFrom : Nat → Iterator → Option (List Reading)
  | 0, _ => none
  | rounds + 1, iterator =>
      if iterator.samples = loader.samplesEnd then some []
      else
        (loader.advance iterator).bind fun following =>
          (iterateFrom rounds following).map (reading loader.memory iterator.samples :: ·)

def iterate : Option (List Reading) :=
  loader.first.bind (loader.iterateFrom (loader.size + 1))

end SamplesLoader

end Xpedite.Samples
