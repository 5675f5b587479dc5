import Xpedite.Samples.FileRoundTrip

/-!
Samples files that were cut off.  The iterator stops only at the very end of the file: a cut
inside the header of a segment, or inside a sample, takes it past the end for good.  At the end
of a sample without counters it reads on, in what is mapped or behind it.
-/

namespace Xpedite.Samples

open Lib SamplesLoader

section Ends

variable {loader : SamplesLoader} {limit : Nat} {iterator following : Iterator}

/-- The iterator arrives at the end, and every sample that it is dereferenced at on the way lies
below the limit. -/
inductive Ends (loader : SamplesLoader) (limit : Nat) : Iterator → Prop
  | arrived {iterator : Iterator} (here : iterator.samples = loader.samplesEnd) :
      Ends loader limit iterator
  | advanced {iterator following : Iterator} (inside : next loader.memory iterator.samples ≤ limit)
      (taken : loader.advance iterator = some following) (later : Ends loader limit following) :
      Ends loader limit iterator

theorem not_ends_of_gt (beyond : loader.samplesEnd < iterator.samples) :
    ¬Ends loader limit iterator := by
  intro ends
  induction ends with
  | arrived here => omega
  | advanced inside taken later ih =>
      rw [advance, if_neg (by omega)] at taken
      cases taken
      exact ih beyond

theorem ends_iff (before : iterator.samples < loader.samplesEnd) :
    Ends loader limit iterator ↔ next loader.memory iterator.samples ≤ limit ∧
      ∃ following, loader.advance iterator = some following ∧ Ends loader limit following := by
  constructor
  · intro ends
    cases ends with
    | arrived here => omega
    | advanced inside taken later => exact ⟨inside, _, taken, later⟩
  · rintro ⟨inside, following, taken, later⟩
    exact .advanced inside taken later

theorem not_ends_of_overshoot (before : iterator.samples < loader.samplesEnd)
    (beyond : loader.samplesEnd < next loader.memory iterator.samples) :
    ¬Ends loader limit iterator := by
  rw [ends_iff before]
  rintro ⟨-, following, taken, later⟩
  rw [advance, if_pos before] at taken
  split at taken
  · cases taken
  · dsimp only at taken
    rw [if_neg (by omega)] at taken
    cases taken
    exact not_ends_of_gt beyond later

end Ends

/-- A place where a header or a sample ends, and whether the iterator reads on behind it. -/
structure Boundary where
  place : Nat
  readsOn : Bool
  deriving DecidableEq

def Boundary.shift (distance : Nat) (boundary : Boundary) : Boundary :=
  { boundary with place := distance + boundary.place }

def sampleEnds : Nat → List Sample → List Boundary
  | _, [] => []
  | start, sample :: samples =>
      ⟨start + sample.bytes.length, sample.pmc.isNone⟩ ::
        sampleEnds (start + sample.bytes.length) samples

def boundaries : Nat → List Batch → List Boundary
  | _, [] => []
  | start, batch :: batches =>
      ⟨start + sizeofSegmentHeader, false⟩ :: sampleEnds (start + sizeofSegmentHeader) batch.samples ++
        boundaries (start + sizeofSegmentHeader + batch.bytes.length) batches

/-- The end is at one of the boundaries, and what is read on behind it can be read. -/
def Reached (stop readable : Nat) (places : List Boundary) : Prop :=
  ∃ boundary ∈ places, boundary.place = stop ∧ (boundary.readsOn = true → stop + 8 ≤ readable)

instance Reached.decidable (stop readable : Nat) (places : List Boundary) :
    Decidable (Reached stop readable places) :=
  inferInstanceAs (Decidable (∃ boundary ∈ places, boundary.place = stop ∧
    (boundary.readsOn = true → stop + 8 ≤ readable)))

section Reached

variable {stop readable : Nat}

theorem not_reached_nil : ¬Reached stop readable [] := by
  rintro ⟨boundary, listed, -⟩
  cases listed

theorem reached_cons {first : Boundary} {places : List Boundary} :
    Reached stop readable (first :: places) ↔
      first.place = stop ∧ (first.readsOn = true → stop + 8 ≤ readable) ∨
        Reached stop readable places := by
  simp only [Reached, List.exists_mem_cons_iff]

theorem reached_append {places others : List Boundary} :
    Reached stop readable (places ++ others) ↔
      Reached stop readable places ∨ Reached stop readable others := by
  simp only [Reached, List.mem_append, or_and_right, exists_or]

theorem reached_shift (distance : Nat) (places : List Boundary) :
    Reached (distance + stop) (distance + readable) (places.map (Boundary.shift distance)) ↔
      Reached stop readable places := by
  simp only [Reached, List.mem_map, exists_exists_and_eq_and, Boundary.shift,
    Nat.add_left_cancel_iff, Nat.add_assoc, Nat.add_le_add_iff_left]

theorem sampleEnds_shift (distance start : Nat) (samples : List Sample) :
    sampleEnds (distance + start) samples =
      (sampleEnds start samples).map (Boundary.shift distance) := by
  induction samples generalizing start with
  | nil => rfl
  | cons sample samples ih =>
      rw [sampleEnds, sampleEnds, List.map_cons, Nat.add_assoc, ih]
      rfl

theorem boundaries_shift (distance start : Nat) (batches : List Batch) :
    boundaries (distance + start) batches =
      (boundaries start batches).map (Boundary.shift distance) := by
  induction batches generalizing start with
  | nil => rfl
  | cons batch batches ih =>
      simp only [boundaries, Nat.add_assoc, ih, sampleEnds_shift, List.map_cons, List.map_append]
      rfl

theorem Reached.sampleEnds_le {start : Nat} {samples : List Sample}
    (reached : Reached stop readable (sampleEnds start samples)) : start + 16 ≤ stop := by
  induction samples generalizing start with
  | nil => exact absurd reached not_reached_nil
  | cons sample samples ih =>
      have long := sample.sixteen_le_length_bytes
      rw [sampleEnds, reached_cons] at reached
      rcases reached with ⟨here, -⟩ | later
      · dsimp only at here
        omega
      · have further := ih later
        omega

theorem Reached.boundaries_le {start : Nat} {batches : List Batch}
    (reached : Reached stop readable (boundaries start batches)) :
    start + sizeofSegmentHeader ≤ stop := by
  induction batches generalizing start with
  | nil => exact absurd reached not_reached_nil
  | cons batch batches ih =>
      rw [boundaries, List.cons_append, reached_cons, reached_append] at reached
      rcases reached with ⟨here, -⟩ | inSamples | later
      · exact Nat.le_of_eq here
      · have further := inSamples.sampleEnds_le
        omega
      · have further := ih later
        omega

end Reached

section Cut

variable {loader : SamplesLoader} {limit : Nat}

theorem ends_sample_iff {this left : Nat} {sample : Sample} {rest : List UInt8}
    (holds : loader.memory.Holds this ((sample.bytes ++ rest).take (loader.samplesEnd - this)))
    (start : this < loader.samplesEnd) (small : sample.bytes.length + left < 2 ^ 32)
    (mapped : loader.samplesEnd ≤ limit) (inside : loader.samplesEnd ≤ loader.readable) :
    Ends loader limit ⟨this, sample.bytes.length + left⟩ ↔
      this + sample.bytes.length ≤ loader.samplesEnd ∧
        (sample.pmc.isNone = true → this + sample.bytes.length + 8 ≤ loader.readable) ∧
        ∃ following,
          (if left = 0 ∧ this + sample.bytes.length < loader.samplesEnd then
            loader.segment (this + sample.bytes.length)
          else some ⟨this + sample.bytes.length, left⟩) = some following ∧
          Ends loader limit following := by
  by_cases whole : this + sample.bytes.length ≤ loader.samplesEnd
  · rw [Memory.holds_take_append (by omega)] at holds
    have stands := stands_of_holds holds.1
    have below : next loader.memory this ≤ limit := by
      rw [next, stands.size_eq]
      omega
    rw [ends_iff start, and_iff_right below, and_iff_right whole,
      advance_of_stands stands start small (by omega)]
    by_cases faults : sample.pmc.isNone = true ∧ loader.readable < this + sample.bytes.length + 8
    · rw [if_pos faults]
      refine iff_of_false ?_ fun both => Nat.not_le.mpr faults.2 (both.1 faults.1)
      rintro ⟨following, absent, -⟩
      cases absent
    · rw [if_neg faults]
      refine (and_iff_right fun plain => ?_).symm
      exact Nat.not_lt.mp fun short => faults ⟨plain, short⟩
  · have cut : loader.samplesEnd - this < sample.bytes.length := by omega
    rw [List.take_append_of_le_length (Nat.le_of_lt cut)] at holds
    have exceeds := lt_size_of_cut holds cut
    have beyond : loader.samplesEnd < next loader.memory this := by
      rw [next]
      omega
    exact ⟨fun ends => absurd ends (not_ends_of_overshoot start beyond),
      fun enough => absurd enough.1 whole⟩

/-- Behind a sample the iteration is at the end, or it goes on. -/
theorem landed_iff {place stop readable : Nat} {plain ends later : Prop}
    (beyond : later → place < stop ∧ place + 8 ≤ readable) (arrives : place = stop → ends)
    (goesOn : place < stop → (ends ↔ later)) :
    place ≤ stop ∧ (plain → place + 8 ≤ readable) ∧ ends ↔
      place = stop ∧ (plain → stop + 8 ≤ readable) ∨ later := by
  constructor
  · rintro ⟨within, reads, itEnds⟩
    rcases Nat.eq_or_lt_of_le within with here | long
    · exact .inl ⟨here, here ▸ reads⟩
    · exact .inr ((goesOn long).mp itEnds)
  · rintro (⟨here, reads⟩ | further)
    · exact ⟨Nat.le_of_eq here, here ▸ reads, arrives here⟩
    · obtain ⟨long, reads⟩ := beyond further
      exact ⟨Nat.le_of_lt long, fun _ => reads, (goesOn long).mpr further⟩

theorem ends_samples_iff {seq this : Nat} {sample : Sample} {samples : List Sample}
    {later : List Batch}
    (laterEnds : ∀ address, address < loader.samplesEnd →
      loader.memory.Holds address
        ((segmentsBytes seq later).take (loader.samplesEnd - address)) →
      loader.samplesEnd ≤ address + (segmentsBytes seq later).length →
      ((∃ following, loader.segment address = some following ∧ Ends loader limit following) ↔
        Reached loader.samplesEnd loader.readable (boundaries address later)))
    (holds : loader.memory.Holds this
      ((streamBytes (sample :: samples) ++ segmentsBytes seq later).take (loader.samplesEnd - this)))
    (start : this < loader.samplesEnd)
    (stop : loader.samplesEnd ≤ this + (streamBytes (sample :: samples)).length +
      (segmentsBytes seq later).length)
    (small : (streamBytes (sample :: samples)).length < 2 ^ 32) (mapped : loader.samplesEnd ≤ limit)
    (inside : loader.samplesEnd ≤ loader.readable) :
    Ends loader limit ⟨this, (streamBytes (sample :: samples)).length⟩ ↔
      Reached loader.samplesEnd loader.readable (sampleEnds this (sample :: samples)) ∨
        Reached loader.samplesEnd loader.readable
          (boundaries (this + (streamBytes (sample :: samples)).length) later) := by
  induction samples generalizing this sample with
  | nil =>
      have bytes : streamBytes [sample] = sample.bytes := List.flatMap_singleton _ _
      rw [bytes] at holds stop small ⊢
      rw [← Nat.add_zero sample.bytes.length,
        ends_sample_iff holds start small mapped inside, Nat.add_zero, sampleEnds, sampleEnds,
        reached_cons, or_iff_left not_reached_nil]
      refine landed_iff (fun further => ?_) (fun here => ?_) fun long => ?_
      · have beyond := further.boundaries_le
        rw [sizeofSegmentHeader] at beyond
        exact ⟨by omega, by omega⟩
      · rw [if_neg (by omega)]
        exact ⟨_, rfl, .arrived here⟩
      · rw [Memory.holds_take_append (by omega), Nat.sub_sub] at holds
        rw [if_pos ⟨rfl, long⟩]
        exact laterEnds _ long holds.2 stop
  | cons following samples ih =>
      have bytes : streamBytes (sample :: following :: samples) =
          sample.bytes ++ streamBytes (following :: samples) := List.flatMap_cons
      have more := length_streamBytes_pos (List.cons_ne_nil following samples)
      rw [bytes, List.length_append] at stop small ⊢
      rw [bytes, List.append_assoc] at holds
      have landed : (∃ other, some (⟨this + sample.bytes.length,
            (streamBytes (following :: samples)).length⟩ : Iterator) = some other ∧
          Ends loader limit other) ↔ Ends loader limit ⟨this + sample.bytes.length,
            (streamBytes (following :: samples)).length⟩ := by
        simp only [Option.some_inj, exists_eq_left']
      rw [ends_sample_iff holds start small mapped inside, if_neg (by omega), landed, sampleEnds,
        reached_cons, or_assoc]
      refine landed_iff (fun rest => ?_) (fun here => .arrived here) fun long => ?_
      · rcases rest with others | further
        · have beyond := others.sampleEnds_le
          exact ⟨by omega, by omega⟩
        · have beyond := further.boundaries_le
          rw [sizeofSegmentHeader] at beyond
          exact ⟨by omega, by omega⟩
      · rw [Memory.holds_take_append (by omega), Nat.sub_sub] at holds
        rw [ih holds.2 long (by omega) (by omega), Nat.add_assoc]

theorem ends_segment_iff {seq address : Nat} {batches : List Batch}
    (fit : ∀ batch ∈ batches, batch.bytes.length < 2 ^ 32)
    (holds : loader.memory.Holds address
      ((segmentsBytes seq batches).take (loader.samplesEnd - address)))
    (start : address < loader.samplesEnd)
    (stop : loader.samplesEnd ≤ address + (segmentsBytes seq batches).length)
    (mapped : loader.samplesEnd ≤ limit) (inside : loader.samplesEnd ≤ loader.readable) :
    (∃ following, loader.segment address = some following ∧ Ends loader limit following) ↔
      Reached loader.samplesEnd loader.readable (boundaries address batches) := by
  induction batches generalizing seq address with
  | nil =>
      rw [segmentsBytes, List.length_nil] at stop
      omega
  | cons batch batches ih =>
      rw [List.forall_mem_cons] at fit
      have header := length_segmentHeader batch.time batch.bytes.length (seq + 1)
      rw [boundaries, List.cons_append, reached_cons, reached_append]
      dsimp only
      rcases Nat.lt_trichotomy loader.samplesEnd (address + sizeofSegmentHeader) with
        short | reached | long
      · refine iff_of_false ?_ ?_
        · rintro ⟨following, read, ends⟩
          rw [SamplesLoader.segment] at read
          split at read
          · cases read
          · cases read
            exact not_ends_of_gt short ends
        · rintro (⟨reached, -⟩ | others | further)
          · omega
          · have beyond := others.sampleEnds_le
            omega
          · have beyond := further.boundaries_le
            omega
      · refine iff_of_true ?_ (.inl ⟨reached.symm, fun never => absurd never Bool.false_ne_true⟩)
        rw [sizeofSegmentHeader] at reached
        rw [SamplesLoader.segment, if_neg (by omega)]
        exact ⟨_, rfl, .arrived reached.symm⟩
      · rw [sizeofSegmentHeader] at long ⊢
        obtain ⟨following, others, recorded⟩ := List.exists_cons_of_ne_nil batch.recorded
        have bytes : batch.bytes = streamBytes (following :: others) := by
          rw [Batch.bytes, recorded]
        rw [segmentsBytes, List.append_assoc, Memory.holds_take_append (by omega), header,
          Nat.sub_sub] at holds
        rw [segmentsBytes, List.length_append, List.length_append, header] at stop
        rw [segment_of_holds holds.1 fit.1 (by omega),
          or_iff_right (fun here => Nat.ne_of_gt long here.1.symm), recorded]
        simp only [Option.some_inj, exists_eq_left']
        rw [bytes] at holds stop fit ⊢
        exact ends_samples_iff
          (fun place before held enough => ih fit.2 held before enough) holds.2 long (by omega)
          fit.1 mapped inside

end Cut

section File

variable {loader : SamplesLoader} {probes : List Probe} {room : Nat} {batches : List Batch}

/-- Each record lies in what can be read, where the one before it says that it ends. -/
def RecordsRead (memory : Memory) (readable : Nat) : Nat → Nat → Prop
  | 0, _ => True
  | count + 1, this =>
      this + sizeofProbeInfo ≤ readable ∧
        RecordsRead memory readable count (this + ProbeInfo.size memory this)

theorem isSome_visit_iff (memory : Memory) (readable limit count this : Nat) :
    (visit memory readable limit count this).isSome = true ↔
      RecordsRead memory readable count this := by
  induction count generalizing this with
  | zero => exact iff_of_true rfl trivial
  | succ count ih =>
      rw [visit, RecordsRead, ← ih]
      by_cases short : readable < this + sizeofProbeInfo
      · rw [if_pos short]
        exact iff_of_false Bool.false_ne_true fun both => Nat.not_le.mpr short both.1
      · rw [if_neg short, Option.isSome_map, and_iff_right (Nat.not_lt.mp short)]

theorem recordsRead_of_holds {memory : Memory} {readable this : Nat}
    (holds : memory.Holds this (infoBytes probes)) (small : (infoBytes probes).length < 2 ^ 32)
    (inside : this + (infoBytes probes).length ≤ readable) :
    RecordsRead memory readable probes.length this := by
  rw [← isSome_visit_iff memory readable (infoBytes probes).length,
    visit_of_holds holds (Nat.le_refl _) small inside]
  rfl

theorem isSome_forEachCallSiteInfo_iff {file : List UInt8}
    (mapped : Mapped loader probes room file) :
    loader.forEachCallSiteInfo.isSome = true ↔ RecordsRead loader.memory loader.readable
      probes.length (loader.fileHeader + sizeofFileHeader) := by
  rw [forEachCallSiteInfo, mapped.version, if_neg (Nat.lt_irrefl _), mapped.probeCount,
    isSome_visit_iff]

/-- A whole file, or one that was cut off behind a header or a sample, with what is read on behind
it. -/
def CleanCut (probes : List Probe) (batches : List Batch) (room cut : Nat) : Prop :=
  cut % 2 ^ 32 ≠ 0 ∧
    (cut % 2 ^ 32 ≤ 52 + (infoBytes probes).length ∨
      Reached (cut % 2 ^ 32) (pagesOf (cut % 2 ^ 32) + room)
        (boundaries (52 + (infoBytes probes).length) batches))

variable {time : Timeval} {tscHz : UInt64} {pmcCount : UInt32} {seq kept : Nat}

theorem ends_first_iff
    (mapped : Mapped loader probes room
      (headerBytes time tscHz pmcCount probes ++ (segmentsBytes seq batches).take kept))
    (fit : ∀ batch ∈ batches, batch.bytes.length < 2 ^ 32)
    (inside : kept ≤ (segmentsBytes seq batches).length) :
    (∃ iterator, loader.first = some iterator ∧
        Ends loader (loader.fileHeader + (52 + (infoBytes probes).length + kept)) iterator) ↔
      loader.size ≤ 52 + (infoBytes probes).length ∨
        Reached loader.size (pagesOf loader.size + room)
          (boundaries (52 + (infoBytes probes).length) batches) := by
  have header := length_headerBytes time tscHz pmcCount probes
  have length : ((segmentsBytes seq batches).take kept).length = kept :=
    List.length_take_of_le inside
  have size := mapped.size
  have readable := mapped.readable
  have holds := mapped.holds
  rw [← size] at readable holds
  have pages := le_pagesOf loader.size
  rw [mappedSize, List.length_append, header, length] at size
  have less := Nat.mod_le (52 + (infoBytes probes).length + kept) (2 ^ 32)
  have begins := mapped.segmentHeader_eq
  have stop : loader.samplesEnd = loader.fileHeader + loader.size := rfl
  rw [first]
  by_cases short : loader.size ≤ 52 + (infoBytes probes).length
  · rw [if_neg (by omega)]
    exact iff_of_true ⟨_, rfl, .arrived rfl⟩ (.inl short)
  · have held := holds.take loader.size
    rw [List.take_take, Nat.min_eq_left pages, Memory.holds_take_append (by omega), header,
      List.take_take, Nat.min_eq_left (by omega), ← Nat.add_assoc, ← begins] at held
    have left : loader.size - (52 + (infoBytes probes).length) =
        loader.samplesEnd - loader.segmentHeader := by omega
    rw [left] at held
    rw [if_pos (by omega), or_iff_right short,
      ends_segment_iff fit held.2 (by omega) (by omega) (by omega) (by omega), begins, stop,
      readable, Nat.add_assoc, Nat.add_assoc, boundaries_shift, reached_shift]

theorem take_fileBytes :
    (fileBytes time tscHz pmcCount probes seq batches).take
        (52 + (infoBytes probes).length + kept) =
      headerBytes time tscHz pmcCount probes ++ (segmentsBytes seq batches).take kept := by
  rw [fileBytes, ← length_headerBytes time tscHz pmcCount, List.take_length_add_append]

theorem kept_ends_iff (time : Timeval) (tscHz : UInt64) (pmcCount : UInt32) (seq base room : Nat)
    (beyond : Memory) (infosFit : (infoBytes probes).length < 2 ^ 32)
    (batchesFit : ∀ batch ∈ batches, batch.bytes.length < 2 ^ 32)
    (inside : kept ≤ (segmentsBytes seq batches).length) :
    (∃ loader iterator,
      load base (headerBytes time tscHz pmcCount probes ++ (segmentsBytes seq batches).take kept)
          beyond room = some loader ∧
        loader.first = some iterator ∧
        Ends loader (loader.fileHeader + (52 + (infoBytes probes).length + kept)) iterator) ↔
      CleanCut probes batches room (52 + (infoBytes probes).length + kept) ∧
        (2 ^ 32 ≤ 52 + (infoBytes probes).length + kept →
          RecordsRead
            (mapped base (headerBytes time tscHz pmcCount probes ++
              (segmentsBytes seq batches).take kept) beyond)
            (base + pagesOf ((52 + (infoBytes probes).length + kept) % 2 ^ 32) + room)
            probes.length (base + sizeofFileHeader)) := by
  have header := length_headerBytes time tscHz pmcCount probes
  have length : ((segmentsBytes seq batches).take kept).length = kept :=
    List.length_take_of_le inside
  have size : mappedSize (headerBytes time tscHz pmcCount probes ++
      (segmentsBytes seq batches).take kept) = (52 + (infoBytes probes).length + kept) % 2 ^ 32 := by
    rw [mappedSize, List.length_append, header, length]
  rw [CleanCut]
  by_cases full : (52 + (infoBytes probes).length + kept) % 2 ^ 32 = 0
  · refine iff_of_false ?_ fun both => both.1.1 full
    rintro ⟨loader, iterator, loaded, -⟩
    rw [load] at loaded
    dsimp only at loaded
    rw [size, if_pos full] at loaded
    cases loaded
  · obtain ⟨loader, loaded, rfl, memory, mapped⟩ := load_file base beyond room time tscHz pmcCount
      ((segmentsBytes seq batches).take kept) infosFit (by rwa [size])
    have readable := mapped.readable
    rw [size] at readable
    have ends := ends_first_iff mapped batchesFit inside
    rw [mapped.size, size] at ends
    have walks : (2 ^ 32 ≤ 52 + (infoBytes probes).length + kept →
        RecordsRead loader.memory loader.readable probes.length
          (loader.fileHeader + sizeofFileHeader)) ↔ loader.forEachCallSiteInfo.isSome = true := by
      rw [isSome_forEachCallSiteInfo_iff mapped]
      refine ⟨fun wraps => ?_, fun read _ => read⟩
      by_cases large : 2 ^ 32 ≤ 52 + (infoBytes probes).length + kept
      · exact wraps large
      · have whole : 52 + (infoBytes probes).length ≤ loader.size := by
          rw [mapped.size, size]
          omega
        obtain ⟨infos, covered⟩ := mapped.infos whole
        exact recordsRead_of_holds infos infosFit covered
    rw [loaded, and_iff_right full, ← ends, ← memory, ← readable, walks]
    constructor
    · rintro ⟨other, iterator, same, begins, arrives⟩
      obtain ⟨visited, visits, rfl⟩ := Option.map_eq_some_iff.mp same
      exact ⟨⟨iterator, begins, arrives⟩, by rw [visits]; rfl⟩
    · rintro ⟨⟨iterator, begins, arrives⟩, visits⟩
      obtain ⟨visited, same⟩ := Option.isSome_iff_exists.mp visits
      exact ⟨loader, iterator, by rw [same]; rfl, begins, arrives⟩

/--
Iterating a samples file that was cut off behind its header comes to an end, with every sample
inside the file, exactly where the cut is a clean one.  If 4 GiB of it are left, the loader maps no
more than the rest, and the records of the header may be behind that.
-/
theorem truncated_ends_iff (time : Timeval) (tscHz : UInt64) (pmcCount : UInt32) (seq : Nat)
    (base : Nat) (beyond : Memory) (room : Nat) {cut : Nat}
    (infosFit : (infoBytes probes).length < 2 ^ 32)
    (batchesFit : ∀ batch ∈ batches, batch.bytes.length < 2 ^ 32)
    (afterHeader : 52 + (infoBytes probes).length ≤ cut)
    (inFile : cut ≤ (fileBytes time tscHz pmcCount probes seq batches).length) :
    (∃ loader iterator,
      load base ((fileBytes time tscHz pmcCount probes seq batches).take cut) beyond room =
          some loader ∧
        loader.first = some iterator ∧ Ends loader (loader.fileHeader + cut) iterator) ↔
      CleanCut probes batches room cut ∧
        (2 ^ 32 ≤ cut →
          RecordsRead
            (mapped base ((fileBytes time tscHz pmcCount probes seq batches).take cut) beyond)
            (base + pagesOf (cut % 2 ^ 32) + room) probes.length (base + sizeofFileHeader)) := by
  obtain ⟨kept, rfl⟩ := Nat.exists_eq_add_of_le afterHeader
  rw [fileBytes, List.length_append, length_headerBytes] at inFile
  rw [take_fileBytes]
  exact kept_ends_iff time tscHz pmcCount seq base room beyond infosFit batchesFit (by omega)

end File

section TwoBatches

theorem twoBatches_fit : ∀ batch ∈ [oneBatch, otherBatch], batch.bytes.length < 2 ^ 32 := by
  decide

theorem length_twoProbes : (infoBytes [oneProbe, otherProbe]).length = 85 := by
  decide

theorem length_twoBatches : (segmentsBytes 0 [oneBatch, otherBatch]).length = 152 := by
  decide +kernel

/-- A cut behind the first of the three samples, which has no counters. -/
theorem truncated_ends_twoBatches :
    ∃ loader iterator,
      load 65536 ((fileBytes ⟨1, 2⟩ 3000000000 0 [oneProbe, otherProbe] 0
          [oneBatch, otherBatch]).take 185) (fun _ => 0) 0 = some loader ∧
        loader.first = some iterator ∧ Ends loader (loader.fileHeader + 185) iterator := by
  have inFile : 185 ≤ (fileBytes ⟨1, 2⟩ 3000000000 0 [oneProbe, otherProbe] 0
      [oneBatch, otherBatch]).length := by
    rw [length_fileBytes, contentSize, length_twoProbes, length_twoBatches]
    decide
  have clean : CleanCut [oneProbe, otherProbe] [oneBatch, otherBatch] 0 185 := by
    rw [CleanCut, length_twoProbes]
    decide +kernel
  exact (truncated_ends_iff ⟨1, 2⟩ 3000000000 0 0 65536 (fun _ => 0) 0 (by decide) twoBatches_fit
    (by decide) inFile).mpr ⟨clean, fun large => absurd large (by decide)⟩

/-- A cut in the middle of the first segment header: the iterator misses the end. -/
theorem truncated_inside_header :
    150 ≤ (fileBytes ⟨1, 2⟩ 3000000000 0 [oneProbe, otherProbe] 0 [oneBatch, otherBatch]).length ∧
      ¬∃ loader iterator,
        load 65536 ((fileBytes ⟨1, 2⟩ 3000000000 0 [oneProbe, otherProbe] 0
            [oneBatch, otherBatch]).take 150) (fun _ => 0) 0 = some loader ∧
          loader.first = some iterator ∧ Ends loader (loader.fileHeader + 150) iterator := by
  have kept : 150 = 52 + (infoBytes [oneProbe, otherProbe]).length + 13 := by
    rw [length_twoProbes]
  have unclean : ¬CleanCut [oneProbe, otherProbe] [oneBatch, otherBatch] 0 150 := by
    rw [CleanCut, length_twoProbes]
    decide +kernel
  constructor
  · rw [length_fileBytes, contentSize, length_twoProbes, length_twoBatches]
    decide
  · rw [kept] at unclean ⊢
    rw [take_fileBytes,
      kept_ends_iff ⟨1, 2⟩ 3000000000 0 0 65536 0 (fun _ => 0) (by decide) twoBatches_fit
        (by rw [length_twoBatches]; decide)]
    exact fun both => unclean both.1

end TwoBatches

/-- Nor does it end on a whole file that fills its page, behind which nothing can be read. -/
theorem truncated_at_page :
    ¬∃ loader iterator,
      load 65536 ((fileBytes ⟨1, 2⟩ 3000000000 0 [pageProbe] 0 [pageBatch]).take 4096)
          (fun _ => 0) 0 = some loader ∧
        loader.first = some iterator ∧ Ends loader (loader.fileHeader + 4096) iterator := by
  have infos : (infoBytes [pageProbe]).length = 44 := by decide
  have size := contentSize_page
  have kept : 4096 = 52 + (infoBytes [pageProbe]).length + 4000 := by rw [infos]
  have unclean : ¬CleanCut [pageProbe] [pageBatch] 0 4096 := by
    rw [CleanCut, infos]
    decide +kernel
  have small : contentSize [pageProbe] [pageBatch] < 2 ^ 32 := by
    rw [size]
    decide
  rw [contentSize, infos] at size
  rw [kept] at unclean ⊢
  rw [take_fileBytes,
    kept_ends_iff ⟨1, 2⟩ 3000000000 0 0 65536 0 (fun _ => 0) (infosFit_of_small small)
      (batchesFit_of_small small) (by omega)]
  exact fun both => unclean both.1

end Xpedite.Samples
