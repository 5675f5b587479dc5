import Xpedite.Samples.FileCore
import Xpedite.Samples.SampleStream
import Xpedite.Transport.Tape

/-!
What a `Persister` puts into a samples file is what a `SamplesLoader` finds there.
-/

namespace Xpedite.Samples

open Lib

def Probe.nameData (probe : Probe) : List UInt8 :=
  nameBytes probe.name ++ nameBytes probe.file ++ nameBytes probe.func

def Probe.bytes (probe : Probe) : List UInt8 :=
  bytesOf 8 probe.rawRecorderCallSite.toNat ++ bytesOf 4 probe.attr.toNat ++
    bytesOf 4 probe.id.toNat ++ bytesOf 4 0 ++ bytesOf 4 (nameSize probe.name) ++
    bytesOf 4 (nameSize probe.name + nameSize probe.file) ++ bytesOf 4 probe.line.toNat ++
    bytesOf 4 (nameSize probe.name + nameSize probe.file + nameSize probe.func) ++ probe.nameData

theorem Probe.length_bytes (probe : Probe) :
    probe.bytes.length = Persister.objSize probe := by
  simp only [Probe.bytes, Probe.nameData, List.length_append, length_bytesOf, Persister.objSize,
    nameSize, sizeofProbeInfo]
  omega

structure NameAdded (before after : Memory) (this offsetField size : Nat) (name : CString) :
    Prop where
  noted : after.Holds (this + offsetField) (bytesOf 4 size)
  kept : after.Holds (this + sizeofProbeInfo + size) (nameBytes name)
  counted : after.Holds (this + 32) (bytesOf 4 (size + nameSize name))
  frame : ∀ place, place < this + offsetField ∨ this + offsetField + 4 ≤ place →
    place < this + 32 ∨ this + 36 ≤ place →
    place < this + 36 + size ∨ this + 36 + size + nameSize name ≤ place →
    after place = before place

theorem addName_spec {memory : Memory} {this offsetField size : Nat} (name : CString)
    (isName : offsetField + 4 ≤ 32) (held : memory.Holds (this + 32) (bytesOf 4 size))
    (small : size < 2 ^ 32) :
    NameAdded memory (ProbeInfo.addName memory this offsetField name) this offsetField size name := by
  have loaded : ProbeInfo.dataSize memory this = size := held.load small
  simp only [ProbeInfo.addName, loaded]
  constructor
  · apply (memory.holds_store (this + offsetField) 4 size).congr
    intro place low high
    rw [length_bytesOf] at high
    rw [Memory.store_outside _ _ _ (by omega), Memory.write_of_lt _ _ (by rw [sizeofProbeInfo]; omega)]
  · apply (Memory.holds_write _ (this + sizeofProbeInfo + size) (nameBytes name)).congr
    intro place low high
    rw [sizeofProbeInfo] at low
    rw [Memory.store_outside _ _ _ (by omega)]
  · exact Memory.holds_store _ _ _ _
  · intro place besideField besideSize besideName
    have outside : place < this + sizeofProbeInfo + size ∨
        this + sizeofProbeInfo + size + (nameBytes name).length ≤ place := besideName
    rw [Memory.store_outside _ _ _ (by omega)]
    rcases outside with before | after
    · rw [Memory.write_of_lt _ _ before, Memory.store_outside _ _ _ (by omega)]
    · rw [Memory.write_of_ge _ after, Memory.store_outside _ _ _ (by omega)]

def plainFields (memory : Memory) (this : Nat) (probe : Probe) : Memory :=
  ((((memory.store this 8 probe.rawRecorderCallSite.toNat).store (this + 8) 4
    probe.attr.toNat).store (this + 12) 4 probe.id.toNat).store (this + 28) 4
    probe.line.toNat).store (this + 32) 4 0

structure PlainSet (memory : Memory) (this : Nat) (probe : Probe) : Prop where
  site : memory.Holds this (bytesOf 8 probe.rawRecorderCallSite.toNat)
  attr : memory.Holds (this + 8) (bytesOf 4 probe.attr.toNat)
  id : memory.Holds (this + 12) (bytesOf 4 probe.id.toNat)
  line : memory.Holds (this + 28) (bytesOf 4 probe.line.toNat)

theorem plainFields_set (memory : Memory) (this : Nat) (probe : Probe) :
    PlainSet (plainFields memory this probe) this probe := by
  constructor
  · apply (memory.holds_store this 8 probe.rawRecorderCallSite.toNat).congr
    intro place low high
    rw [length_bytesOf] at high
    rw [plainFields]
    iterate 4 rw [Memory.store_outside _ _ _ (by omega)]
  · apply (Memory.holds_store _ (this + 8) 4 probe.attr.toNat).congr
    intro place low high
    rw [length_bytesOf] at high
    rw [plainFields]
    iterate 3 rw [Memory.store_outside _ _ _ (by omega)]
  · apply (Memory.holds_store _ (this + 12) 4 probe.id.toNat).congr
    intro place low high
    rw [length_bytesOf] at high
    rw [plainFields]
    iterate 2 rw [Memory.store_outside _ _ _ (by omega)]
  · apply (Memory.holds_store _ (this + 28) 4 probe.line.toNat).congr
    intro place low high
    rw [length_bytesOf] at high
    rw [plainFields, Memory.store_outside _ _ _ (by omega)]

theorem plainFields_frame (memory : Memory) {this place : Nat} (probe : Probe)
    (outside : place < this ∨ this + 36 ≤ place) :
    plainFields memory this probe place = memory place := by
  rw [plainFields]
  iterate 5 rw [Memory.store_outside _ _ _ (by omega)]

theorem PlainSet.addName {before after : Memory} {this offsetField size : Nat} {name : CString}
    {probe : Probe} (plain : PlainSet before this probe)
    (added : NameAdded before after this offsetField size name) (low : 16 ≤ offsetField)
    (high : offsetField + 4 ≤ 28) : PlainSet after this probe := by
  have frame : ∀ place, this ≤ place → place < this + 16 ∨
      (this + 28 ≤ place ∧ place < this + 32) → after place = before place := by
    intro place start inside
    exact added.frame place (by omega) (by omega) (by omega)
  constructor
  · apply plain.site.congr
    intro place start stop
    rw [length_bytesOf] at stop
    exact frame place (by omega) (by omega)
  · apply plain.attr.congr
    intro place start stop
    rw [length_bytesOf] at stop
    exact frame place (by omega) (by omega)
  · apply plain.id.congr
    intro place start stop
    rw [length_bytesOf] at stop
    exact frame place (by omega) (by omega)
  · apply plain.line.congr
    intro place start stop
    rw [length_bytesOf] at stop
    exact frame place (by omega) (by omega)

theorem NameAdded.keeps {before after : Memory} {this offsetField size : Nat} {name : CString}
    (added : NameAdded before after this offsetField size name) {address : Nat}
    {bytes : List UInt8} (holds : before.Holds address bytes)
    (besideField : address + bytes.length ≤ this + offsetField ∨ this + offsetField + 4 ≤ address)
    (besideSize : address + bytes.length ≤ this + 32 ∨ this + 36 ≤ address)
    (besideName : address + bytes.length ≤ this + 36 + size) : after.Holds address bytes := by
  apply holds.congr
  intro place start stop
  exact added.frame place (by omega) (by omega) (by omega)

theorem construct_spec (memory : Memory) (this : Nat) (probe : Probe)
    (small : Persister.objSize probe < 2 ^ 32) :
    (ProbeInfo.construct memory this probe).Holds this probe.bytes ∧
      ∀ place, place < this ∨ this + probe.bytes.length ≤ place →
        ProbeInfo.construct memory this probe place = memory place := by
  have total := probe.length_bytes
  simp only [Persister.objSize, sizeofProbeInfo] at small total
  have plain := plainFields_set memory this probe
  have zero : (plainFields memory this probe).Holds (this + 32) (bytesOf 4 0) :=
    Memory.holds_store _ _ _ _
  have frame : ∀ place, place < this ∨ this + 36 ≤ place →
      plainFields memory this probe place = memory place :=
    fun _ outside => plainFields_frame memory probe outside
  have unfolded : ProbeInfo.construct memory this probe =
      ProbeInfo.addName (ProbeInfo.addName (ProbeInfo.addName (plainFields memory this probe) this
        16 probe.name) this 20 probe.file) this 24 probe.func := rfl
  rw [unfolded]
  generalize plainFields memory this probe = base at plain zero frame
  have one := addName_spec probe.name (show 16 + 4 ≤ 32 by omega) zero (by omega)
  generalize ProbeInfo.addName base this 16 probe.name = first at one
  have plainOne := plain.addName one (by omega) (by omega)
  have countedOne := one.counted
  rw [Nat.zero_add] at countedOne
  have two := addName_spec probe.file (show 20 + 4 ≤ 32 by omega) countedOne (by omega)
  generalize ProbeInfo.addName first this 20 probe.file = second at two
  have plainTwo := plainOne.addName two (by omega) (by omega)
  have three := addName_spec probe.func (show 24 + 4 ≤ 32 by omega) two.counted (by omega)
  generalize ProbeInfo.addName second this 24 probe.func = third at three
  have plainThree := plainTwo.addName three (by omega) (by omega)
  have lengths : (bytesOf 4 0).length = 4 ∧ (bytesOf 4 (nameSize probe.name)).length = 4 ∧
      (nameBytes probe.name).length = nameSize probe.name ∧
      (nameBytes probe.file).length = nameSize probe.file :=
    ⟨length_bytesOf _ _, length_bytesOf _ _, rfl, rfl⟩
  have firstOffset : third.Holds (this + 16) (bytesOf 4 0) :=
    three.keeps (two.keeps one.noted (by omega) (by omega) (by omega)) (by omega) (by omega) (by omega)
  have secondOffset := three.keeps two.noted (by omega) (by omega) (by omega)
  have header : sizeofProbeInfo = 36 := rfl
  have firstName := three.keeps (two.keeps one.kept (by omega) (by omega) (by omega)) (by omega)
    (by omega) (by omega)
  have secondName := three.keeps two.kept (by omega) (by omega) (by omega)
  constructor
  · simp only [Probe.bytes, Probe.nameData, Memory.holds_append, List.length_append, length_bytesOf,
      Nat.reduceAdd]
    exact ⟨⟨⟨⟨⟨⟨⟨⟨plainThree.site, plainThree.attr⟩, plainThree.id⟩, firstOffset⟩, secondOffset⟩,
      three.noted⟩, plainThree.line⟩, three.counted⟩, ⟨firstName, secondName⟩, three.kept⟩
  · intro place outside
    rw [three.frame place (by omega) (by omega) (by omega),
      two.frame place (by omega) (by omega) (by omega),
      one.frame place (by omega) (by omega) (by omega)]
    exact frame place (by omega)

theorem cString_of_holds {memory : Memory} {limit address : Nat} {text : List UInt8}
    (holds : memory.Holds address (text ++ [0])) (solid : 0 ∉ text) (within : text.length < limit) :
    cString memory limit address = text := by
  induction text generalizing limit address with
  | nil =>
      rw [List.nil_append, Memory.holds_cons] at holds
      cases limit with
      | zero => omega
      | succ limit => rw [cString, if_pos holds.1]
  | cons byte text ih =>
      rw [List.cons_append, Memory.holds_cons] at holds
      rw [List.mem_cons, not_or] at solid
      rw [List.length_cons] at within
      cases limit with
      | zero => omega
      | succ limit =>
          rw [cString, holds.1, if_neg (Ne.symm solid.1), ih holds.2 solid.2 (by omega)]

theorem probeInfo_of_holds {memory : Memory} {this limit : Nat} {probe : Probe}
    (holds : memory.Holds this probe.bytes) (within : probe.bytes.length ≤ limit)
    (small : limit < 2 ^ 32) :
    ProbeInfo.at memory this limit = probe.info ∧
      ProbeInfo.size memory this = probe.bytes.length := by
  have total := probe.length_bytes
  have header : sizeofProbeInfo = 36 := rfl
  simp only [Persister.objSize, header] at total
  have nameLengths : (nameBytes probe.name).length = nameSize probe.name ∧
      (nameBytes probe.file).length = nameSize probe.file := ⟨rfl, rfl⟩
  simp only [Probe.bytes, Probe.nameData, Memory.holds_append, List.length_append, length_bytesOf,
    Nat.reduceAdd, nameLengths] at holds
  obtain ⟨⟨⟨⟨⟨⟨⟨⟨site, attr⟩, id⟩, firstOffset⟩, secondOffset⟩, thirdOffset⟩, line⟩, size⟩,
    ⟨firstName, secondName⟩, thirdName⟩ := holds
  have text : ∀ {offsetField offset : Nat} {name : CString},
      memory.Holds (this + offsetField) (bytesOf 4 offset) →
      memory.Holds (this + 36 + offset) (nameBytes name) → offset + nameSize name ≤ limit →
      ProbeInfo.text memory this limit offsetField = name.val := by
    intro offsetField offset name noted kept fits
    have longer : nameSize name = name.val.length + 1 := List.length_append
    rw [ProbeInfo.text, noted.load (by omega)]
    exact cString_of_holds kept name.property (by omega)
  constructor
  · rw [ProbeInfo.at, Probe.info, Memory.Holds.load64 site, attr.load probe.attr.toNat_lt,
      id.load probe.id.toNat_lt, line.load probe.line.toNat_lt,
      text firstOffset firstName (by omega), text secondOffset secondName (by omega),
      text thirdOffset thirdName (by omega)]
  · rw [ProbeInfo.size, ProbeInfo.dataSize, size.load (by omega), total, header]
    omega

def infoBytes (probes : List Probe) : List UInt8 := probes.flatMap Probe.bytes

theorem visit_of_holds {memory : Memory} {this limit readable : Nat} {probes : List Probe}
    (holds : memory.Holds this (infoBytes probes)) (within : (infoBytes probes).length ≤ limit)
    (small : limit < 2 ^ 32) (inside : this + (infoBytes probes).length ≤ readable) :
    SamplesLoader.visit memory readable limit probes.length this =
      some (probes.map Probe.info, this + (infoBytes probes).length) := by
  induction probes generalizing this with
  | nil => rfl
  | cons probe probes ih =>
      have cons : infoBytes (probe :: probes) = probe.bytes ++ infoBytes probes := List.flatMap_cons
      have length := probe.length_bytes
      rw [Persister.objSize] at length
      rw [cons, List.length_append] at within inside
      rw [cons, Memory.holds_append] at holds
      obtain ⟨info, size⟩ := probeInfo_of_holds holds.1 (by omega) small
      have rest := ih holds.2 (by omega) (by omega)
      rw [List.length_cons, SamplesLoader.visit, if_neg (by omega), size, info, rest, cons,
        List.length_append, List.map_cons, Option.map_some, Nat.add_assoc]

def frontBytes (time : Timeval) (tscHz : UInt64) (pmcCount : UInt32) : List UInt8 :=
  bytesOf 8 fileSignature ++ bytesOf 8 fileVersion ++ bytesOf 8 time.seconds.toNat ++
    bytesOf 8 time.microseconds.toNat ++ bytesOf 8 tscHz.toNat ++ bytesOf 4 pmcCount.toNat

theorem length_frontBytes (time : Timeval) (tscHz : UInt64) (pmcCount : UInt32) :
    (frontBytes time tscHz pmcCount).length = 44 := by
  simp only [frontBytes, List.length_append, length_bytesOf]

structure Registered (persister : Persister) (front : List UInt8) (probes : List Probe) : Prop where
  front : persister.buffer.Holds 0 front
  count : persister.buffer.Holds 44 (bytesOf 4 probes.length)
  size : persister.buffer.Holds 48 (bytesOf 4 (infoBytes probes).length)
  infos : persister.buffer.Holds 52 (infoBytes probes)
  fits : 52 + (infoBytes probes).length ≤ persister.capacity

theorem fileHeader_eq_write (memory : Memory) (time : Timeval) (tscHz : UInt64)
    (pmcCount : UInt32) :
    FileHeader.construct memory 0 time tscHz pmcCount =
      memory.write 0 (frontBytes time tscHz pmcCount ++ bytesOf 4 0 ++ bytesOf 4 0) := by
  simp only [frontBytes, Memory.write_append, List.length_append, length_bytesOf, Nat.reduceAdd]
  rfl

theorem registered_new (time : Timeval) (tscHz : UInt64) (pmcCount : UInt32) :
    Registered (Persister.new time tscHz pmcCount []) (frontBytes time tscHz pmcCount) [] := by
  have written := Memory.holds_write (fun _ => 0) 0
    (frontBytes time tscHz pmcCount ++ bytesOf 4 0 ++ bytesOf 4 0)
  rw [← fileHeader_eq_write, Memory.holds_append, Memory.holds_append, List.length_append,
    length_frontBytes, length_bytesOf] at written
  have room : 52 ≤ 2 * 1024 * 1024 := by decide
  exact ⟨written.1.1, written.1.2, written.2, Memory.holds_nil _ _, room⟩

section Registering

variable {persister : Persister} {front : List UInt8} {probes : List Probe}

theorem Registered.hdrSize_eq (registered : Registered persister front probes)
    (small : (infoBytes probes).length < 2 ^ 32) :
    persister.hdrSize = 52 + (infoBytes probes).length := by
  have loaded : FileHeader.probeInfoBufSize persister.buffer 0 = (infoBytes probes).length :=
    registered.size.load small
  rw [Persister.hdrSize, FileHeader.size, loaded, sizeofFileHeader]

theorem Registered.resizeBuffer (registered : Registered persister front probes)
    (short : front.length = 44) (small : (infoBytes probes).length < 2 ^ 32) (objSize : Nat) :
    Registered (persister.resizeBuffer objSize) front probes ∧
      52 + (infoBytes probes).length + objSize ≤ (persister.resizeBuffer objSize).capacity := by
  have fits := registered.fits
  have kept : ∀ place, place < 52 + (infoBytes probes).length →
      (persister.resizeBuffer objSize).buffer place = persister.buffer place := by
    intro place inside
    exact if_pos (by omega)
  have large : persister.hdrSize + objSize ≤ (persister.resizeBuffer objSize).capacity :=
    Transport.target_le_doubleTo _ _ _ (by omega) (by omega)
  rw [registered.hdrSize_eq small] at large
  refine ⟨⟨?_, ?_, ?_, ?_, by omega⟩, large⟩
  · exact registered.front.congr fun place _ stop => kept place (by omega)
  · apply registered.count.congr
    intro place _ stop
    rw [length_bytesOf] at stop
    exact kept place (by omega)
  · apply registered.size.congr
    intro place _ stop
    rw [length_bytesOf] at stop
    exact kept place (by omega)
  · exact registered.infos.congr fun place _ stop => kept place (by omega)

theorem infoBytes_snoc (probes : List Probe) (probe : Probe) :
    infoBytes (probes ++ [probe]) = infoBytes probes ++ probe.bytes := by
  simp [infoBytes]

theorem length_le_infoBytes (probes : List Probe) : probes.length ≤ (infoBytes probes).length := by
  induction probes with
  | nil => exact Nat.zero_le _
  | cons probe probes ih =>
      have cons : infoBytes (probe :: probes) = probe.bytes ++ infoBytes probes := List.flatMap_cons
      have length := probe.length_bytes
      rw [Persister.objSize, sizeofProbeInfo] at length
      rw [cons, List.length_append, List.length_cons]
      omega

theorem Registered.addProbe (registered : Registered persister front probes)
    (short : front.length = 44) {probe : Probe}
    (room : 52 + (infoBytes probes).length + probe.bytes.length ≤ persister.capacity)
    (small : (infoBytes (probes ++ [probe])).length < 2 ^ 32) :
    Registered (persister.addProbe probe) front (probes ++ [probe]) := by
  have counted := infoBytes_snoc probes probe
  rw [counted, List.length_append] at small
  have few : probes.length < 2 ^ 32 :=
    Nat.lt_of_le_of_lt (length_le_infoBytes probes) (by omega)
  have count : FileHeader.probeCount persister.buffer 0 = probes.length := registered.count.load few
  have bufSize : FileHeader.probeInfoBufSize persister.buffer 0 = (infoBytes probes).length :=
    registered.size.load (by omega)
  have length := probe.length_bytes
  generalize numbered : persister.buffer.store 44 4 (probes.length + 1) = memory
  obtain ⟨written, frame⟩ := construct_spec memory (52 + (infoBytes probes).length) probe (by omega)
  obtain ⟨-, size⟩ := probeInfo_of_holds written (Nat.le_refl _) (by omega)
  have added : (persister.addProbe probe).buffer =
      (ProbeInfo.construct memory (52 + (infoBytes probes).length) probe).store 48 4
        ((infoBytes probes).length + probe.bytes.length) := by
    simp only [Persister.addProbe, count, bufSize, sizeofFileHeader, numbered, size]
  have capacity : (persister.addProbe probe).capacity = persister.capacity := rfl
  generalize ProbeInfo.construct memory (52 + (infoBytes probes).length) probe = filled at *
  have kept : ∀ place, place < 44 ∨ (52 ≤ place ∧ place < 52 + (infoBytes probes).length) →
      (persister.addProbe probe).buffer place = persister.buffer place := by
    intro place inside
    rw [added, Memory.store_outside _ _ _ (by omega), frame place (by omega), ← numbered,
      Memory.store_outside _ _ _ (by omega)]
  refine ⟨?_, ?_, ?_, ?_, ?_⟩
  · exact registered.front.congr fun place _ stop => kept place (by omega)
  · rw [List.length_append, List.length_singleton]
    apply (persister.buffer.holds_store 44 4 (probes.length + 1)).congr
    intro place start stop
    rw [length_bytesOf] at stop
    rw [added, Memory.store_outside _ _ _ (by omega), frame place (by omega), ← numbered]
  · rw [counted, List.length_append, added]
    exact Memory.holds_store _ _ _ _
  · rw [counted, Memory.holds_append]
    constructor
    · exact registered.infos.congr fun place start stop => kept place (by omega)
    · apply written.congr
      intro place start stop
      rw [added, Memory.store_outside _ _ _ (by omega)]
  · rw [counted, List.length_append, capacity]
    omega

theorem Registered.register (registered : Registered persister front probes)
    (short : front.length = 44) {probe : Probe}
    (small : (infoBytes (probes ++ [probe])).length < 2 ^ 32) :
    Registered (persister.register probe) front (probes ++ [probe]) := by
  have length := probe.length_bytes
  have total : (infoBytes probes).length + probe.bytes.length < 2 ^ 32 := by
    rw [infoBytes_snoc, List.length_append] at small
    exact small
  have hdrSize := registered.hdrSize_eq (by omega)
  have fits := registered.fits
  rw [Persister.register]
  by_cases full : persister.freeSize < Persister.objSize probe
  · obtain ⟨resized, room⟩ := registered.resizeBuffer short (by omega) (Persister.objSize probe)
    simp only [full, if_true]
    exact resized.addProbe short (by omega) small
  · simp only [full, if_false]
    rw [Persister.freeSize, hdrSize] at full
    exact registered.addProbe short (by omega) small

theorem Registered.foldl (registered : Registered persister front probes)
    (short : front.length = 44) {others : List Probe}
    (small : (infoBytes (probes ++ others)).length < 2 ^ 32) :
    Registered (others.foldl Persister.register persister) front (probes ++ others) := by
  induction others generalizing persister probes with
  | nil => rwa [List.append_nil]
  | cons probe others ih =>
      have regroup : probes ++ probe :: others = probes ++ [probe] ++ others := by simp
      rw [regroup] at small ⊢
      have parts : (infoBytes (probes ++ [probe] ++ others)).length =
          (infoBytes (probes ++ [probe])).length + (infoBytes others).length := by
        rw [infoBytes, List.flatMap_append, List.length_append]
        rfl
      have smaller : (infoBytes (probes ++ [probe])).length < 2 ^ 32 := by omega
      exact ih (registered.register short smaller) small

end Registering

def headerBytes (time : Timeval) (tscHz : UInt64) (pmcCount : UInt32) (probes : List Probe) :
    List UInt8 :=
  frontBytes time tscHz pmcCount ++ bytesOf 4 probes.length ++
    bytesOf 4 (infoBytes probes).length ++ infoBytes probes

theorem length_headerBytes (time : Timeval) (tscHz : UInt64) (pmcCount : UInt32)
    (probes : List Probe) :
    (headerBytes time tscHz pmcCount probes).length = 52 + (infoBytes probes).length := by
  simp only [headerBytes, List.length_append, length_frontBytes, length_bytesOf]

theorem write_eq {bytes : List UInt8} (fits : bytes.length ≤ Persister.maxWrite)
    (file : List UInt8) : Persister.write file bytes = file ++ bytes := by
  rw [Persister.write, List.take_of_length_le fits]

theorem persistHeader_eq (time : Timeval) (tscHz : UInt64) (pmcCount : UInt32)
    {probes : List Probe} (small : (infoBytes probes).length < 2 ^ 32) :
    (Persister.new time tscHz pmcCount probes).hdrSize ≤
        (Persister.new time tscHz pmcCount probes).capacity ∧
      (Persister.new time tscHz pmcCount probes).persistHeader [] =
        (headerBytes time tscHz pmcCount probes).take Persister.maxWrite := by
  have registered : Registered (Persister.new time tscHz pmcCount probes)
      (frontBytes time tscHz pmcCount) probes :=
    (registered_new time tscHz pmcCount).foldl (length_frontBytes time tscHz pmcCount) small
  have hdrSize := registered.hdrSize_eq small
  have whole : (Persister.new time tscHz pmcCount probes).buffer.Holds 0
      (headerBytes time tscHz pmcCount probes) := by
    simp only [headerBytes, Memory.holds_append, List.length_append, length_frontBytes,
      length_bytesOf]
    exact ⟨⟨⟨registered.front, registered.count⟩, registered.size⟩, registered.infos⟩
  have held : (Persister.new time tscHz pmcCount probes).buffer.read 0
      (headerBytes time tscHz pmcCount probes).length =
        headerBytes time tscHz pmcCount probes := whole
  refine ⟨hdrSize ▸ registered.fits, ?_⟩
  rw [Persister.persistHeader, Persister.write, List.nil_append, hdrSize,
    ← length_headerBytes time tscHz pmcCount, held]

end Xpedite.Samples
