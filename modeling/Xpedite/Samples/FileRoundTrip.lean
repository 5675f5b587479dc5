import Xpedite.Samples.File

/-!
The segments of a samples file, and the way of the iterator through them.  What was recorded is
read back unless a write was too long for one call, or the word behind the last sample, which is
not part of the file, cannot be read.
-/

namespace Xpedite.Samples

open Lib

def Batch.bytes (batch : Batch) : List UInt8 := streamBytes batch.samples

def segmentsBytes : Nat → List Batch → List UInt8
  | _, [] => []
  | seq, batch :: batches =>
      SegmentHeader.bytes batch.time batch.bytes.length (seq + 1) ++ batch.bytes ++
        segmentsBytes (seq + 1) batches

theorem length_segmentHeader (time : Timeval) (size seq : Nat) :
    (SegmentHeader.bytes time size seq).length = 32 := by
  simp only [SegmentHeader.bytes, List.length_append, length_bytesOf]

theorem length_streamBytes_pos {samples : List Sample} (recorded : samples ≠ []) :
    0 < (streamBytes samples).length := by
  obtain ⟨sample, others, rfl⟩ := List.exists_cons_of_ne_nil recorded
  have positive := sample.length_bytes_pos
  rw [streamBytes, List.flatMap_cons, List.length_append]
  omega

theorem persistBatch_eq (file : List UInt8) (seq : Nat) (batch : Batch)
    (small : batch.bytes.length < 2 ^ 32) :
    persistBatch (file, seq) batch =
      (file ++ SegmentHeader.bytes batch.time batch.bytes.length (seq + 1) ++
        batch.bytes.take Persister.maxWrite, seq + 1) := by
  have positive : 0 < batch.bytes.length := length_streamBytes_pos batch.recorded
  have written : (batch.memory.write batch.start batch.bytes).read batch.start batch.bytes.length =
      batch.bytes := batch.memory.holds_write batch.start batch.bytes
  have proceeds : ¬(batch.start = 0 ∨ batch.start = batch.start + batch.bytes.length) := by
    have located := batch.located
    omega
  have size : (batch.start + batch.bytes.length - batch.start) % 2 ^ 32 = batch.bytes.length := by
    omega
  have header : (SegmentHeader.bytes batch.time batch.bytes.length (seq + 1)).length ≤
      Persister.maxWrite := by
    rw [length_segmentHeader]
    decide
  rw [persistBatch, layOut_eq]
  change persistData _ _ (batch.memory.write batch.start batch.bytes) _
    (batch.start + batch.bytes.length) = _
  rw [persistData, if_neg proceeds]
  simp only [size, written, write_eq header]
  rfl

/-- What the writes of the batches put into the file, and how many bytes they leave out. -/
theorem foldl_persistBatch (file : List UInt8) (seq : Nat) {batches : List Batch}
    (small : ∀ batch ∈ batches, batch.bytes.length < 2 ^ 32) :
    ((∀ batch ∈ batches, batch.bytes.length ≤ Persister.maxWrite) ∧
        (batches.foldl persistBatch (file, seq)).1 = file ++ segmentsBytes seq batches) ∨
      (¬(∀ batch ∈ batches, batch.bytes.length ≤ Persister.maxWrite) ∧
        (batches.foldl persistBatch (file, seq)).1.length <
          file.length + (segmentsBytes seq batches).length) := by
  induction batches generalizing file seq with
  | nil => exact .inl ⟨by simp, (List.append_nil file).symm⟩
  | cons batch batches ih =>
      rw [List.forall_mem_cons] at small
      have header := length_segmentHeader batch.time batch.bytes.length (seq + 1)
      simp only [List.foldl_cons, persistBatch_eq _ _ _ small.1, segmentsBytes,
        List.forall_mem_cons]
      have rest := ih (file ++ SegmentHeader.bytes batch.time batch.bytes.length (seq + 1) ++
        batch.bytes.take Persister.maxWrite) (seq + 1) small.2
      simp only [List.length_append, List.length_take, header] at rest ⊢
      by_cases whole : batch.bytes.length ≤ Persister.maxWrite
      · rcases rest with ⟨others, written⟩ | ⟨others, shorter⟩
        · refine .inl ⟨⟨whole, others⟩, ?_⟩
          rw [written, List.take_of_length_le whole]
          simp only [List.append_assoc]
        · exact .inr ⟨fun both => others both.2, by omega⟩
      · refine .inr ⟨fun both => whole both.1, ?_⟩
        rcases rest with ⟨-, written⟩ | ⟨-, shorter⟩
        · rw [written]
          simp only [List.length_append, List.length_take, header]
          omega
        · omega

theorem length_bytes_le_segmentsBytes {batch : Batch} {batches : List Batch}
    (listed : batch ∈ batches) (seq : Nat) :
    batch.bytes.length ≤ (segmentsBytes seq batches).length := by
  induction batches generalizing seq with
  | nil => cases listed
  | cons first batches ih =>
      rw [segmentsBytes, List.length_append, List.length_append]
      rcases List.mem_cons.mp listed with rfl | later
      · omega
      · have rest := ih later (seq + 1)
        omega

theorem le_pagesOf (size : Nat) : size ≤ pagesOf size := by
  rw [pagesOf, pageSize]
  omega

theorem pageSize_le_pagesOf {size : Nat} (some_ : size ≠ 0) : 4096 ≤ pagesOf size := by
  rw [pagesOf, pageSize]
  omega

/-- The file as it was to be written. -/
def fileBytes (time : Timeval) (tscHz : UInt64) (pmcCount : UInt32) (probes : List Probe)
    (seq : Nat) (batches : List Batch) : List UInt8 :=
  headerBytes time tscHz pmcCount probes ++ segmentsBytes seq batches

structure Mapped (loader : SamplesLoader) (probes : List Probe) (room : Nat)
    (file : List UInt8) : Prop where
  version : FileHeader.version loader.memory loader.fileHeader = fileVersion
  probeCount : FileHeader.probeCount loader.memory loader.fileHeader = probes.length
  probeInfoBufSize :
    FileHeader.probeInfoBufSize loader.memory loader.fileHeader = (infoBytes probes).length
  holds : loader.memory.Holds loader.fileHeader (file.take (pagesOf (mappedSize file)))
  size : loader.size = mappedSize file
  readable : loader.readable = loader.fileHeader + pagesOf (mappedSize file) + room

theorem load_file (base : Nat) (beyond : Memory) (room : Nat) (time : Timeval) (tscHz : UInt64)
    (pmcCount : UInt32) {probes : List Probe} (segments : List UInt8)
    (small : (infoBytes probes).length < 2 ^ 32)
    (full : mappedSize (headerBytes time tscHz pmcCount probes ++ segments) ≠ 0) :
    ∃ loader : SamplesLoader,
      SamplesLoader.load base (headerBytes time tscHz pmcCount probes ++ segments) beyond room =
          (loader.forEachCallSiteInfo.map fun _ => loader) ∧
        loader.fileHeader = base ∧
        loader.memory = mapped base (headerBytes time tscHz pmcCount probes ++ segments) beyond ∧
        Mapped loader probes room (headerBytes time tscHz pmcCount probes ++ segments) := by
  have few := length_le_infoBytes probes
  have pages := pageSize_le_pagesOf full
  have front : (frontBytes time tscHz pmcCount ++ bytesOf 4 probes.length ++
      bytesOf 4 (infoBytes probes).length).length = 52 := by
    simp only [List.length_append, length_frontBytes, length_bytesOf]
  have regroup : headerBytes time tscHz pmcCount probes ++ segments =
      frontBytes time tscHz pmcCount ++ bytesOf 4 probes.length ++
        bytesOf 4 (infoBytes probes).length ++ (infoBytes probes ++ segments) := by
    simp only [headerBytes, List.append_assoc]
  generalize fileEq : headerBytes time tscHz pmcCount probes ++ segments = file at full pages regroup ⊢
  have holds : (mapped base file beyond).Holds base (file.take (pagesOf (mappedSize file))) :=
    beyond.holds_write base _
  generalize mappedEq : mapped base file beyond = memory at holds ⊢
  have header : memory.Holds base (frontBytes time tscHz pmcCount ++ bytesOf 4 probes.length ++
      bytesOf 4 (infoBytes probes).length) := by
    have start := holds.take 52
    rwa [List.take_take, Nat.min_eq_left (by omega), regroup, ← front, List.take_left'] at start
    rfl
  simp only [frontBytes, Memory.holds_append, List.length_append, length_bytesOf,
    Nat.reduceAdd] at header
  obtain ⟨⟨⟨⟨⟨⟨⟨signature, version⟩, -⟩, -⟩, -⟩, -⟩, count⟩, size⟩ := header
  have loadedVersion : FileHeader.version memory base = fileVersion := version.load (by decide)
  have loadedCount : memory.load (base + 44) 4 = probes.length := count.load (by omega)
  have loadedSize : memory.load (base + 48) 4 = (infoBytes probes).length := size.load (by omega)
  have valid : FileHeader.isValid memory base = true := by
    rw [FileHeader.isValid, loadedVersion, signature.load (by decide)]
    decide
  refine ⟨⟨memory, base, mappedSize file, base + pagesOf (mappedSize file) + room⟩, ?_, rfl, rfl,
    loadedVersion, loadedCount, loadedSize, holds, rfl, rfl⟩
  rw [SamplesLoader.load, mappedEq]
  simp only [full, if_false, valid, if_true]

section Iteration

variable {loader : SamplesLoader}

theorem segment_of_holds {address size seq : Nat} {time : Timeval}
    (holds : loader.memory.Holds address (SegmentHeader.bytes time size seq))
    (small : size < 2 ^ 32) (inside : address + 32 ≤ loader.readable) :
    loader.segment address = some ⟨address + 32, size⟩ := by
  simp only [SegmentHeader.bytes, Memory.holds_append, List.length_append, length_bytesOf,
    Nat.reduceAdd] at holds
  obtain ⟨⟨-, held⟩, -⟩ := holds
  have loaded : loader.memory.load (address + 24) 4 = size := held.load small
  rw [SamplesLoader.segment, if_neg (by omega), loaded, sizeofSegmentHeader]

theorem iterateFrom_end (rounds size : Nat) :
    loader.iterateFrom (rounds + 1) ⟨loader.samplesEnd, size⟩ = some [] := by
  rw [SamplesLoader.iterateFrom, if_pos rfl]

theorem Sample.sixteen_le_length_bytes (sample : Sample) : 16 ≤ sample.bytes.length := by
  simp only [Sample.bytes, List.length_append, length_wordBytes]
  omega

theorem sizeEnd_of_stands {memory : Memory} {this : Nat} {sample : Sample}
    (stands : Stands memory this sample) :
    if sample.pmc.isNone then
      SamplesLoader.sizeEnd memory this = this + sample.bytes.length + 8
    else SamplesLoader.sizeEnd memory this ≤ this + sample.bytes.length := by
  have data := length_dataBytes sample.data
  have length : sample.bytes.length =
      16 + 16 * sample.data.isSome.toNat + (pmcBytes sample.pmc).length := by
    simp only [Sample.bytes, List.length_append, length_wordBytes, data]
    omega
  rw [SamplesLoader.sizeEnd, stands.hasData_eq, length]
  cases counters : sample.pmc with
  | none =>
      simp only [Option.isNone_none, if_true, pmcBytes, List.length_nil]
      omega
  | some values =>
      have more : 8 ≤ (pmcBytes (some values)).length := by
        simp only [pmcBytes, List.length_append, length_wordBytes]
        omega
      simp only [Option.isNone_some, Bool.false_eq_true, if_false]
      omega

theorem advance_of_stands {this left : Nat} {sample : Sample}
    (stands : Stands loader.memory this sample) (before : this < loader.samplesEnd)
    (small : sample.bytes.length + left < 2 ^ 32)
    (inside : this + sample.bytes.length ≤ loader.readable) :
    loader.advance ⟨this, sample.bytes.length + left⟩ =
      if sample.pmc.isNone = true ∧ loader.readable < this + sample.bytes.length + 8 then none
      else if left = 0 ∧ this + sample.bytes.length < loader.samplesEnd then
        loader.segment (this + sample.bytes.length)
      else some ⟨this + sample.bytes.length, left⟩ := by
  have reads := sizeEnd_of_stands stands
  have remains : (sample.bytes.length + left + 2 ^ 32 - sample.bytes.length) % 2 ^ 32 = left := by
    omega
  rw [SamplesLoader.advance, if_pos before]
  simp only [next, stands.size_eq, remains]
  cases plain : sample.pmc.isNone with
  | true =>
      rw [plain, if_pos rfl] at reads
      simp only [reads, true_and]
  | false =>
      rw [plain, if_neg Bool.false_ne_true] at reads
      rw [if_neg (show ¬loader.readable < SamplesLoader.sizeEnd loader.memory this by omega)]
      simp only [Bool.false_eq_true, false_and, if_false]

def endsPlain (samples : List Sample) : Bool :=
  (samples.getLast?.map fun sample => sample.pmc.isNone).getD false

theorem endsPlain_cons_cons (sample following : Sample) (samples : List Sample) :
    endsPlain (sample :: following :: samples) = endsPlain (following :: samples) := by
  rw [endsPlain, endsPlain, List.getLast?_cons_cons]

def samplesOf (batches : List Batch) : List Sample := batches.flatMap Batch.samples

/-- The iterator comes to the end with all the samples, unless it would have to read on. -/
theorem iterateFrom_of_holds {rounds this seq : Nat} {sample : Sample} {samples : List Sample}
    {later : List Batch}
    (holds : loader.memory.Holds this
      (streamBytes (sample :: samples) ++ segmentsBytes seq later))
    (stop : loader.samplesEnd = this + (streamBytes (sample :: samples)).length +
      (segmentsBytes seq later).length)
    (small : (streamBytes (sample :: samples)).length + (segmentsBytes seq later).length < 2 ^ 32)
    (enough : (streamBytes (sample :: samples)).length + (segmentsBytes seq later).length < rounds)
    (inside : loader.samplesEnd ≤ loader.readable) :
    loader.iterateFrom rounds ⟨this, (streamBytes (sample :: samples)).length⟩ =
      if endsPlain (sample :: samples ++ samplesOf later) = true ∧
          loader.readable < loader.samplesEnd + 8 then none
      else some ((sample :: samples ++ samplesOf later).map Sample.reading) := by
  induction rounds generalizing this seq sample samples later with
  | zero =>
      have positive := length_streamBytes_pos (List.cons_ne_nil sample samples)
      omega
  | succ rounds ih =>
      have cons : streamBytes (sample :: samples) = sample.bytes ++ streamBytes samples :=
        List.flatMap_cons
      have positive := sample.sixteen_le_length_bytes
      rw [cons, List.append_assoc, Memory.holds_append] at holds
      rw [cons, List.length_append] at stop small enough ⊢
      have stands := stands_of_holds holds.1
      have notEnd : ¬this = loader.samplesEnd := by omega
      rw [SamplesLoader.iterateFrom, if_neg notEnd, stands.reading_eq,
        advance_of_stands stands (by omega) (by omega) (by omega)]
      cases samples with
      | cons following others =>
          have more := following.sixteen_le_length_bytes
          have rest : (streamBytes (following :: others)).length =
              following.bytes.length + (streamBytes others).length := by
            rw [streamBytes, List.flatMap_cons, List.length_append]
            rfl
          rw [if_neg (by omega), if_neg (by omega), Option.bind_some,
            ih holds.2 (by omega) (by omega) (by omega)]
          simp only [List.cons_append, endsPlain_cons_cons]
          split
          · rfl
          · rfl
      | nil =>
          have none : (streamBytes ([] : List Sample)).length = 0 := rfl
          cases later with
          | nil =>
              have ended : this + sample.bytes.length = loader.samplesEnd := by
                rw [stop, none]
                rfl
              have last : endsPlain ([sample] ++ samplesOf []) = sample.pmc.isNone := rfl
              rw [last, ended]
              split
              · rfl
              · obtain ⟨more, rfl⟩ := Nat.exists_eq_succ_of_ne_zero (show rounds ≠ 0 by omega)
                rw [if_neg (by omega), Option.bind_some, iterateFrom_end]
                rfl
          | cons batch batches =>
              obtain ⟨following, others, recorded⟩ := List.exists_cons_of_ne_nil batch.recorded
              have more : 0 < batch.bytes.length := length_streamBytes_pos batch.recorded
              have held := holds.2
              rw [segmentsBytes, streamBytes, List.flatMap_nil, List.nil_append, List.append_assoc,
                Memory.holds_append, length_segmentHeader] at held
              rw [segmentsBytes, List.length_append, List.length_append, length_segmentHeader]
                at stop small enough
              have segment := segment_of_holds held.1 (by omega) (by omega)
              have bytes : batch.bytes = streamBytes (following :: others) := by
                rw [Batch.bytes, recorded]
              have readings : samplesOf (batch :: batches) =
                  following :: others ++ samplesOf batches := by
                rw [samplesOf, List.flatMap_cons, recorded]
                rfl
              rw [if_neg (by omega), if_pos ⟨none, by omega⟩, segment, Option.bind_some]
              rw [bytes] at held stop small enough ⊢
              rw [ih held.2 (by omega) (by omega) (by omega), readings]
              simp only [List.cons_append, List.nil_append, endsPlain_cons_cons]
              split
              · rfl
              · rfl

theorem Mapped.segmentHeader_eq {probes : List Probe} {room : Nat} {file : List UInt8}
    (mapped : Mapped loader probes room file) :
    loader.segmentHeader = loader.fileHeader + 52 + (infoBytes probes).length := by
  rw [SamplesLoader.segmentHeader, mapped.version, if_neg (Nat.lt_irrefl _),
    mapped.probeInfoBufSize, sizeofFileHeader]

end Iteration

section RoundTrip

variable {loader : SamplesLoader} {time : Timeval} {tscHz : UInt64} {pmcCount : UInt32}
  {probes : List Probe} {seq room : Nat} {batches : List Batch}

def contentSize (probes : List Probe) (batches : List Batch) : Nat :=
  52 + (infoBytes probes).length + (segmentsBytes 0 batches).length

theorem length_segmentsBytes (seq other : Nat) (batches : List Batch) :
    (segmentsBytes seq batches).length = (segmentsBytes other batches).length := by
  induction batches generalizing seq other with
  | nil => rfl
  | cons batch batches ih =>
      rw [segmentsBytes, segmentsBytes, List.length_append, List.length_append, List.length_append,
        List.length_append, length_segmentHeader, length_segmentHeader, ih (seq + 1) (other + 1)]

theorem length_fileBytes : (fileBytes time tscHz pmcCount probes seq batches).length =
    contentSize probes batches := by
  rw [fileBytes, List.length_append, length_headerBytes, contentSize, length_segmentsBytes seq 0]

theorem Mapped.infos {segments : List UInt8}
    (mapped : Mapped loader probes room (headerBytes time tscHz pmcCount probes ++ segments))
    (inside : 52 + (infoBytes probes).length ≤ loader.size) :
    loader.memory.Holds (loader.fileHeader + 52) (infoBytes probes) ∧
      loader.fileHeader + 52 + (infoBytes probes).length ≤ loader.readable := by
  have pages := le_pagesOf loader.size
  have header := length_headerBytes time tscHz pmcCount probes
  have front : (frontBytes time tscHz pmcCount ++ bytesOf 4 probes.length ++
      bytesOf 4 (infoBytes probes).length).length = 52 := by
    simp only [List.length_append, length_frontBytes, length_bytesOf]
  have holds := mapped.holds
  have readable := mapped.readable
  rw [← mapped.size] at holds readable
  rw [Memory.holds_take_append (by omega), headerBytes, Memory.holds_append, front] at holds
  exact ⟨holds.1.2, by omega⟩

theorem Mapped.parts (mapped : Mapped loader probes room
      (fileBytes time tscHz pmcCount probes seq batches))
    (small : contentSize probes batches < 2 ^ 32) :
    loader.size = contentSize probes batches ∧
      loader.memory.Holds (loader.fileHeader + 52) (infoBytes probes) ∧
      loader.memory.Holds loader.segmentHeader (segmentsBytes seq batches) := by
  have size : mappedSize (fileBytes time tscHz pmcCount probes seq batches) =
      contentSize probes batches := by
    rw [mappedSize, length_fileBytes, Nat.mod_eq_of_lt small]
  have whole := mapped.size.trans size
  have holds := mapped.holds
  rw [size, List.take_of_length_le (length_fileBytes ▸ le_pagesOf _), fileBytes,
    Memory.holds_append, length_headerBytes, ← Nat.add_assoc, ← mapped.segmentHeader_eq] at holds
  refine ⟨whole, (mapped.infos ?_).1, holds.2⟩
  rw [whole, contentSize]
  omega

theorem Mapped.forEachCallSiteInfo_eq (mapped : Mapped loader probes room
      (fileBytes time tscHz pmcCount probes seq batches))
    (small : contentSize probes batches < 2 ^ 32) :
    loader.forEachCallSiteInfo = some (probes.map Probe.info, loader.segmentHeader) := by
  obtain ⟨size, infos, -⟩ := mapped.parts small
  have pages := le_pagesOf (mappedSize (fileBytes time tscHz pmcCount probes seq batches))
  have readable := mapped.readable
  rw [← mapped.size, size] at pages readable
  rw [contentSize] at pages readable size small
  have visited := visit_of_holds infos (show _ ≤ loader.size by omega) (by omega)
    (show _ ≤ loader.readable by omega)
  rw [SamplesLoader.forEachCallSiteInfo, mapped.version, if_neg (Nat.lt_irrefl _),
    mapped.probeCount, sizeofFileHeader, visited, mapped.segmentHeader_eq]

theorem Mapped.iterate_eq (mapped : Mapped loader probes room
      (fileBytes time tscHz pmcCount probes seq batches))
    (small : contentSize probes batches < 2 ^ 32) :
    loader.iterate =
      if endsPlain (samplesOf batches) = true ∧ pagesOf (contentSize probes batches) + room <
          contentSize probes batches + 8 then none
      else some ((samplesOf batches).map Sample.reading) := by
  obtain ⟨size, -, held⟩ := mapped.parts small
  have pages := le_pagesOf (mappedSize (fileBytes time tscHz pmcCount probes seq batches))
  have readable := mapped.readable
  have header := mapped.segmentHeader_eq
  have lengths := length_segmentsBytes seq 0 batches
  have stop : loader.samplesEnd = loader.segmentHeader + (segmentsBytes seq batches).length := by
    rw [SamplesLoader.samplesEnd, size, header, contentSize, lengths]
    omega
  rw [← mapped.size, size] at pages readable
  have behind : loader.readable < loader.samplesEnd + 8 ↔
      pagesOf (contentSize probes batches) + room < contentSize probes batches + 8 := by
    rw [SamplesLoader.samplesEnd, size]
    omega
  simp only [SamplesLoader.iterate, SamplesLoader.first, ← behind]
  cases batches with
  | nil =>
      rw [segmentsBytes, List.length_nil] at stop
      rw [if_neg (by omega), Option.bind_some, iterateFrom_end]
      rfl
  | cons batch batches =>
      obtain ⟨following, others, recorded⟩ := List.exists_cons_of_ne_nil batch.recorded
      have bytes : batch.bytes = streamBytes (following :: others) := by
        rw [Batch.bytes, recorded]
      have readings : samplesOf (batch :: batches) =
          following :: others ++ samplesOf batches := by
        rw [samplesOf, List.flatMap_cons, recorded]
        rfl
      have inside : loader.samplesEnd ≤ loader.readable := by
        rw [SamplesLoader.samplesEnd, size]
        omega
      rw [contentSize] at small size
      rw [← lengths] at small size
      rw [segmentsBytes, List.append_assoc, Memory.holds_append, length_segmentHeader] at held
      rw [segmentsBytes, List.length_append, List.length_append, length_segmentHeader]
        at stop size small
      have segment := segment_of_holds held.1 (by omega) (by omega)
      rw [if_pos (by omega), segment, Option.bind_some]
      rw [bytes] at held stop size small ⊢
      rw [iterateFrom_of_holds held.2 (by omega) (by omega) (by omega) inside, readings]

/-- Each write of the file is one that `write` takes as a whole. -/
def Writable (probes : List Probe) (batches : List Batch) : Prop :=
  52 + (infoBytes probes).length ≤ Persister.maxWrite ∧
    ∀ batch ∈ batches, batch.bytes.length ≤ Persister.maxWrite

/-- The word behind the last sample can be read, if it is read. -/
def EndReadable (probes : List Probe) (batches : List Batch) (room : Nat) : Prop :=
  endsPlain (samplesOf batches) = true →
    contentSize probes batches + 8 ≤ pagesOf (contentSize probes batches) + room

theorem infosFit_of_small (small : contentSize probes batches < 2 ^ 32) :
    (infoBytes probes).length < 2 ^ 32 := by
  rw [contentSize] at small
  omega

theorem batchesFit_of_small (small : contentSize probes batches < 2 ^ 32) :
    ∀ batch ∈ batches, batch.bytes.length < 2 ^ 32 := by
  intro batch listed
  have part := length_bytes_le_segmentsBytes listed 0
  rw [contentSize] at small
  omega

theorem samplesFile_eq (time : Timeval) (tscHz : UInt64) (pmcCount : UInt32) (batchCount : Nat)
    (infosFit : (infoBytes probes).length < 2 ^ 32)
    (batchesFit : ∀ batch ∈ batches, batch.bytes.length < 2 ^ 32)
    (writable : Writable probes batches) :
    samplesFile (Persister.new time tscHz pmcCount probes) batchCount batches =
      fileBytes time tscHz pmcCount probes batchCount batches := by
  have header := length_headerBytes time tscHz pmcCount probes
  rw [samplesFile, (persistHeader_eq time tscHz pmcCount infosFit).2,
    List.take_of_length_le (header ▸ writable.1), fileBytes]
  rcases foldl_persistBatch (headerBytes time tscHz pmcCount probes) batchCount batchesFit with
    ⟨-, written⟩ | ⟨long, -⟩
  · exact written
  · exact absurd writable.2 long

theorem writable_of_length (small : contentSize probes batches < 2 ^ 32) {batchCount : Nat}
    (whole : (samplesFile (Persister.new time tscHz pmcCount probes) batchCount batches).length =
      contentSize probes batches) : Writable probes batches := by
  have lengths := length_segmentsBytes 0 batchCount batches
  have header := length_headerBytes time tscHz pmcCount probes
  rw [samplesFile, (persistHeader_eq time tscHz pmcCount (infosFit_of_small small)).2,
    contentSize, lengths] at whole
  rcases foldl_persistBatch ((headerBytes time tscHz pmcCount probes).take Persister.maxWrite)
    batchCount (batchesFit_of_small small) with ⟨fit, written⟩ | ⟨-, shorter⟩
  · rw [written, List.length_append, List.length_take, header] at whole
    exact ⟨by omega, fit⟩
  · rw [List.length_take, header] at shorter
    omega

/-- A samples file is what was recorded, and is read back as the probes and the samples it was
made of. -/
structure RoundTrips (time : Timeval) (tscHz : UInt64) (pmcCount : UInt32) (probes : List Probe)
    (batchCount : Nat) (batches : List Batch) (base : Nat) (beyond : Memory) (room : Nat) :
    Prop where
  fits : (Persister.new time tscHz pmcCount probes).hdrSize ≤
    (Persister.new time tscHz pmcCount probes).capacity
  whole : (samplesFile (Persister.new time tscHz pmcCount probes) batchCount batches).length =
    contentSize probes batches
  loads : ∃ loader,
    SamplesLoader.load base
        (samplesFile (Persister.new time tscHz pmcCount probes) batchCount batches) beyond room =
      some loader ∧
    loader.forEachCallSiteInfo = some (probes.map Probe.info, loader.segmentHeader) ∧
    loader.iterate = some ((batches.flatMap Batch.samples).map Sample.reading)

theorem loads_iff (time : Timeval) (tscHz : UInt64) (pmcCount : UInt32) (batchCount base room : Nat)
    (beyond : Memory) (small : contentSize probes batches < 2 ^ 32) :
    (∃ loader,
      SamplesLoader.load base (fileBytes time tscHz pmcCount probes batchCount batches) beyond
          room = some loader ∧
      loader.forEachCallSiteInfo = some (probes.map Probe.info, loader.segmentHeader) ∧
      loader.iterate = some ((batches.flatMap Batch.samples).map Sample.reading)) ↔
      EndReadable probes batches room := by
  have full : mappedSize (fileBytes time tscHz pmcCount probes batchCount batches) ≠ 0 := by
    rw [mappedSize, length_fileBytes, Nat.mod_eq_of_lt small, contentSize]
    omega
  obtain ⟨loader, loaded, -, -, mapped⟩ := load_file base beyond room time tscHz pmcCount
    (segmentsBytes batchCount batches) (infosFit_of_small small) full
  change Mapped loader probes room (fileBytes time tscHz pmcCount probes batchCount batches)
    at mapped
  have visited := mapped.forEachCallSiteInfo_eq small
  have iterated := mapped.iterate_eq small
  rw [visited, Option.map_some] at loaded
  rw [fileBytes, loaded, EndReadable]
  constructor
  · rintro ⟨other, same, -, readings⟩ plain
    obtain rfl := Option.some.inj same
    by_contra short
    rw [iterated, if_pos ⟨plain, Nat.not_le.mp short⟩] at readings
    cases readings
  · intro readable
    refine ⟨loader, rfl, visited, ?_⟩
    rw [iterated, if_neg (fun both => Nat.not_le.mpr both.2 (readable both.1))]
    rfl

/--
A samples file is read back as the probes and the samples it was made of exactly when no write is
too long, and the word behind a last sample without counters can be read.
-/
theorem samplesFile_roundTrip_iff (time : Timeval) (tscHz : UInt64) (pmcCount : UInt32)
    (probes : List Probe) (batchCount : Nat) (batches : List Batch) (base : Nat) (beyond : Memory)
    (room : Nat) (small : contentSize probes batches < 2 ^ 32) :
    RoundTrips time tscHz pmcCount probes batchCount batches base beyond room ↔
      Writable probes batches ∧ EndReadable probes batches room := by
  have infosFit := infosFit_of_small small
  have batchesFit := batchesFit_of_small small
  rw [← loads_iff time tscHz pmcCount batchCount base room beyond small]
  constructor
  · intro roundTrips
    have writable := writable_of_length small roundTrips.whole
    refine ⟨writable, ?_⟩
    rw [← samplesFile_eq time tscHz pmcCount batchCount infosFit batchesFit writable]
    exact roundTrips.loads
  · rintro ⟨writable, loads⟩
    have file := samplesFile_eq time tscHz pmcCount batchCount infosFit batchesFit writable
    refine ⟨(persistHeader_eq time tscHz pmcCount infosFit).1, ?_, ?_⟩
    · rw [file, length_fileBytes]
    · rw [file]
      exact loads

end RoundTrip

theorem thousand_fits : (1000 : UInt64).toNat < 2 ^ 62 := by decide

def plainSample : Sample := ⟨0x400005, ⟨1000, thousand_fits⟩, none, none⟩

def countedSample : Sample :=
  ⟨0x400005, ⟨1000, thousand_fits⟩, some 7, some ⟨[5, 6], by decide⟩⟩

def oneProbe : Probe := ⟨0x400000, 2, 1, ⟨[65], by decide⟩, ⟨[66], by decide⟩, ⟨[67], by decide⟩, 9⟩

def otherProbe : Probe :=
  ⟨0x400020, 2, 2, ⟨[65, 68], by decide⟩, ⟨[66], by decide⟩, ⟨[67], by decide⟩, 12⟩

def oneBatch : Batch where
  time := ⟨1, 2⟩
  memory := fun _ => 0
  start := 4096
  samples := [plainSample, countedSample]
  located := by decide
  recorded := List.cons_ne_nil _ _

def otherBatch : Batch where
  time := ⟨3, 4⟩
  memory := fun _ => 0
  start := 8192
  samples := [plainSample]
  located := by decide
  recorded := List.cons_ne_nil _ _

theorem samplesFile_roundTrip_twoBatches :
    contentSize [oneProbe, otherProbe] [oneBatch, otherBatch] = 289 ∧
      RoundTrips ⟨1, 2⟩ 3000000000 0 [oneProbe, otherProbe] 0 [oneBatch, otherBatch] 65536
        (fun _ => 0) 0 := by
  have size : contentSize [oneProbe, otherProbe] [oneBatch, otherBatch] = 289 := by decide +kernel
  have small : contentSize [oneProbe, otherProbe] [oneBatch, otherBatch] < 2 ^ 32 := by
    rw [size]
    decide
  refine ⟨size, (samplesFile_roundTrip_iff ⟨1, 2⟩ 3000000000 0 [oneProbe, otherProbe] 0
    [oneBatch, otherBatch] 65536 (fun _ => 0) 0 small).mpr ⟨⟨?_, ?_⟩, ?_⟩⟩
  · decide
  · decide
  · intro _
    rw [size]
    decide

def pageProbe : Probe :=
  ⟨0x400000, 2, 1, ⟨[65, 66, 67], by decide⟩, ⟨[66], by decide⟩, ⟨[67], by decide⟩, 9⟩

def pageBatch : Batch where
  time := ⟨1, 2⟩
  memory := fun _ => 0
  start := 4096
  samples := List.replicate 248 plainSample
  located := by decide
  recorded := by decide

theorem length_streamBytes_replicate (count : Nat) (sample : Sample) :
    (streamBytes (List.replicate count sample)).length = count * sample.bytes.length := by
  rw [streamBytes, List.length_flatMap, List.map_replicate, List.sum_replicate_nat]

theorem contentSize_page : contentSize [pageProbe] [pageBatch] = 4096 := by
  have infos : (infoBytes [pageProbe]).length = 44 := by decide
  have sample : plainSample.bytes.length = 16 := by decide
  have samples : pageBatch.bytes.length = 248 * plainSample.bytes.length :=
    length_streamBytes_replicate 248 plainSample
  rw [contentSize, infos, segmentsBytes, segmentsBytes, List.append_nil, List.length_append,
    length_segmentHeader, samples, sample]

/-- The file fills its page, and the number of counters that its last sample does not have would
be on the next one. -/
theorem samplesFile_roundTrip_fails_at_page :
    contentSize [pageProbe] [pageBatch] = 4096 ∧
      ¬RoundTrips ⟨1, 2⟩ 3000000000 0 [pageProbe] 0 [pageBatch] 65536 (fun _ => 0) 0 := by
  have size := contentSize_page
  have small : contentSize [pageProbe] [pageBatch] < 2 ^ 32 := by
    rw [size]
    decide
  refine ⟨size, fun roundTrips => ?_⟩
  have written := @samplesFile_eq [pageProbe] [pageBatch] ⟨1, 2⟩ 3000000000 0 0
    (infosFit_of_small small) (batchesFit_of_small small) (writable_of_length small roundTrips.whole)
  have loads := roundTrips.loads
  rw [written, loads_iff _ _ _ _ _ _ _ small, EndReadable, size] at loads
  have last : endsPlain (samplesOf [pageBatch]) = true := by decide
  exact absurd (loads last) (by decide)

end Xpedite.Samples
