import Xpedite.Lib.Filling
import Xpedite.Samples.Collector
import Xpedite.Samples.SampleStream

/-!
What the loops of the collector keep of a memory that is known.  Both walk from one record
to the next; where the records ascend in time, the ones to be persisted are those later
than `lastSampledTsc`.
-/

namespace Xpedite.Samples

open Lib

abbrev Sample.length (sample : Sample) : Nat := sample.bytes.length

theorem length_streamBytes (samples : List Sample) :
    (streamBytes samples).length = total Sample.length samples := by
  rw [streamBytes, List.length_flatMap, total]

theorem Sample.length_le (sample : Sample) : sample.length ≤ 128 := by
  have data := sample.data.isSome.toNat_le
  rw [Sample.length, Sample.bytes]
  simp only [List.length_append, length_wordBytes, length_dataBytes]
  cases stored : sample.pmc with
  | none =>
      rw [pmcBytes, List.length_nil]
      omega
  | some values =>
      have few := values.property
      rw [pmcBytes, List.length_append, length_wordBytes, length_flatMap_wordBytes]
      omega

namespace Collector

variable {memory : Memory}

theorem Path.append {start middle stop : Nat} {front back : List Nat}
    (first : Path memory start middle front) (second : Path memory middle stop back) :
    Path memory start stop (front ++ back) := by
  induction front generalizing start with
  | nil =>
      obtain rfl : start = middle := first
      exact second
  | cons this rest ih => exact ⟨first.1, ih first.2⟩

theorem Path.next_le {start stop this : Nat} {visited : List Nat}
    (path : Path memory start stop visited) (listed : this ∈ visited) :
    next memory this ≤ stop := by
  induction visited generalizing start with
  | nil => cases listed
  | cons first rest ih =>
      obtain ⟨rfl, path⟩ := path
      rcases List.mem_cons.mp listed with rfl | later
      · exact Nat.le_trans (Nat.le_add_right _ _) path.le
      · exact ih path later

theorem Path.exists_next_eq {start stop : Nat} {visited : List Nat}
    (path : Path memory start stop visited) (some_ : visited ≠ []) :
    ∃ this ∈ visited, next memory this = stop := by
  induction visited generalizing start with
  | nil => exact absurd rfl some_
  | cons first rest ih =>
      obtain ⟨rfl, path⟩ := path
      cases rest with
      | nil => exact ⟨first, List.mem_singleton_self first, path⟩
      | cons second others =>
          obtain ⟨this, later, same⟩ := ih path (List.cons_ne_nil _ _)
          exact ⟨this, List.mem_cons_of_mem _ later, same⟩

/-- Samples that stand in memory are what a walk finds there. -/
theorem path_of_holds {start : Nat} {samples : List Sample}
    (holds : memory.Holds start (streamBytes samples)) :
    Path memory start (start + total Sample.length samples) (places Sample.length start samples) ∧
      (places Sample.length start samples).map (reading memory) =
        samples.map Sample.reading := by
  induction samples generalizing start with
  | nil => exact ⟨rfl, rfl⟩
  | cons sample samples ih =>
      have cons : streamBytes (sample :: samples) = sample.bytes ++ streamBytes samples :=
        List.flatMap_cons
      rw [cons, Memory.holds_append] at holds
      have stands := stands_of_holds holds.1
      obtain ⟨path, readings⟩ := ih holds.2
      have further : next memory start = start + sample.length := by rw [next, stands.size_eq]
      rw [places, total_cons, List.map_cons, readings, stands.reading_eq]
      refine ⟨⟨rfl, ?_⟩, rfl⟩
      rw [further, ← Nat.add_assoc]
      exact path

theorem map_tsc_places {start : Nat} {samples : List Sample}
    (holds : memory.Holds start (streamBytes samples)) :
    (places Sample.length start samples).map (tsc memory) =
      samples.map fun sample => sample.tsc.val := by
  have readings := congrArg (List.map Reading.tsc) (path_of_holds holds).2
  rw [List.map_map, List.map_map] at readings
  exact readings

theorem map_reading_filter {start : Nat} {samples : List Sample}
    (holds : memory.Holds start (streamBytes samples)) (floor : UInt64) :
    ((places Sample.length start samples).filter fun this => floor < tsc memory this).map
        (reading memory) =
      (samples.filter fun sample => floor < sample.tsc.val).map Sample.reading := by
  have later := congrArg (List.filter fun reading => decide (floor < reading.tsc))
    (path_of_holds holds).2
  rw [List.filter_map, List.filter_map] at later
  exact later

def Scan.follow (memory : Memory) (scan : Scan) (visited : List Nat) : Scan :=
  visited.foldl (fun scan _ => scan.advance memory) scan

theorem scanAll_eq_follow {stop final : Nat} {visited : List Nat} {scan : Scan}
    (path : Path memory scan.cursor final visited) (inside : ∀ this ∈ visited, this < stop)
    (ends : stop ≤ final) : scanAll memory stop scan = scan.follow memory visited := by
  induction visited generalizing scan with
  | nil =>
      obtain rfl : scan.cursor = final := path
      rw [scanAll, if_neg (Nat.not_lt.mpr ends)]
      rfl
  | cons this rest ih =>
      obtain ⟨rfl, path⟩ := path
      obtain ⟨here, later⟩ := List.forall_mem_cons.mp inside
      rw [← scan.advance_cursor] at path
      rw [scanAll, if_pos here, ih path later]
      rfl

theorem scanConsistent_eq_follow {stop final : Nat} {minTsc maxTsc : UInt64} {visited : List Nat}
    {scan : Scan} (path : Path memory scan.cursor final visited)
    (inside : ∀ this ∈ visited, this < stop)
    (rising : (minTsc :: visited.map (tsc memory)).Pairwise (· < ·))
    (early : ∀ this ∈ visited, tsc memory this < maxTsc)
    (ends : final < stop →
      tsc memory final ≤ (visited.map (tsc memory)).getLastD minTsc ∨
        maxTsc ≤ tsc memory final) :
    scanConsistent memory stop minTsc maxTsc scan = scan.follow memory visited := by
  induction visited generalizing scan minTsc with
  | nil =>
      obtain rfl : scan.cursor = final := path
      rw [scanConsistent]
      split
      · rename_i short
        have stopped : tsc memory scan.cursor ≤ minTsc ∨ maxTsc ≤ tsc memory scan.cursor :=
          ends short
        rw [if_pos stopped]
        rfl
      · rfl
  | cons this rest ih =>
      obtain ⟨rfl, path⟩ := path
      obtain ⟨here, later⟩ := List.forall_mem_cons.mp inside
      obtain ⟨before, others⟩ := List.forall_mem_cons.mp early
      rw [List.map_cons] at rising
      obtain ⟨above, ascending⟩ := List.pairwise_cons.mp rising
      have after : minTsc < tsc memory scan.cursor := above _ List.mem_cons_self
      have consistent : ¬(tsc memory scan.cursor ≤ minTsc ∨ maxTsc ≤ tsc memory scan.cursor) := by
        rintro (low | high)
        · exact UInt64.not_le.mpr after low
        · exact UInt64.not_le.mpr before high
      rw [← scan.advance_cursor] at path
      rw [scanConsistent, if_pos here, if_neg consistent, ih path later ascending others ?_]
      · rfl
      · rwa [List.map_cons, List.getLastD_cons] at ends

theorem follow_of_later {final : Nat} {visited : List Nat} {scan : Scan}
    (path : Path memory scan.cursor final visited)
    (rising : (scan.lastSampledTsc :: visited.map (tsc memory)).Pairwise (· < ·)) :
    (scan.follow memory visited).first = scan.first ∧
      (scan.follow memory visited).cursor = final := by
  induction visited generalizing scan with
  | nil => exact ⟨rfl, path⟩
  | cons this rest ih =>
      obtain ⟨rfl, path⟩ := path
      rw [List.map_cons] at rising
      obtain ⟨above, ascending⟩ := List.pairwise_cons.mp rising
      have later : ¬tsc memory scan.cursor ≤ scan.lastSampledTsc :=
        UInt64.not_le.mpr (above _ List.mem_cons_self)
      have kept : scan.advance memory = { scan with
          sampleCount := scan.sampleCount + 1
          lastSampledTsc := tsc memory scan.cursor
          cursor := next memory scan.cursor } := by rw [Scan.advance, if_neg later]
      have followed := @ih (scan.advance memory) (by rw [kept]; exact path) (by rw [kept]; exact ascending)
      rw [kept] at followed
      rw [Scan.follow, List.foldl_cons, kept]
      exact followed

theorem follow_path {final : Nat} {visited : List Nat} {scan : Scan}
    (fresh : scan.first = scan.cursor) (path : Path memory scan.cursor final visited)
    (rising : (visited.map (tsc memory)).Pairwise (· < ·)) :
    (scan.follow memory visited).cursor = final ∧
      Path memory (scan.follow memory visited).first final
        (visited.filter fun this => scan.lastSampledTsc < tsc memory this) := by
  induction visited generalizing scan with
  | nil => exact ⟨path, fresh.trans path⟩
  | cons this rest ih =>
      obtain ⟨rfl, rest_⟩ := path
      by_cases later : scan.lastSampledTsc < tsc memory scan.cursor
      · have all : ∀ this ∈ scan.cursor :: rest, scan.lastSampledTsc < tsc memory this := by
          rw [List.map_cons] at rising
          have above := (List.pairwise_cons.mp rising).1
          refine List.forall_mem_cons.mpr ⟨later, ?_⟩
          intro this listed
          exact UInt64.lt_trans later (above _ (List.mem_map_of_mem listed))
        have kept := @follow_of_later memory final (scan.cursor :: rest) scan ⟨rfl, rest_⟩ (by
          refine List.pairwise_cons.mpr ⟨?_, rising⟩
          intro stamp listed
          obtain ⟨this, visited, rfl⟩ := List.mem_map.mp listed
          exact all this visited)
        rw [List.filter_eq_self.mpr (fun this listed => decide_eq_true (all this listed)), kept.1,
          fresh]
        exact ⟨kept.2, rfl, rest_⟩
      · have dropped : scan.advance memory = { scan with
            cursor := next memory scan.cursor
            first := next memory scan.cursor
            staleSampleCount := scan.staleSampleCount + (scan.sampleCount + 1)
            sampleCount := 0 } := by rw [Scan.advance, if_pos (UInt64.not_lt.mp later)]
        rw [List.map_cons] at rising
        have followed := @ih (scan.advance memory) (by rw [dropped]) (by rw [dropped]; exact rest_)
          (List.pairwise_cons.mp rising).2
        rw [dropped] at followed
        rw [List.filter_cons_of_neg (by simpa using later), Scan.follow, List.foldl_cons, dropped]
        exact followed

theorem persistScan_of_path {scan : Scan} {kept : List Nat} (buffer : SamplesBuffer) (stop : Nat)
    (path : Path memory scan.first scan.cursor kept) (near : scan.cursor < stop + 128) :
    persistScan buffer memory stop scan =
      ({ buffer with
          lastSampledTsc := scan.lastSampledTsc
          persisted := buffer.persisted ++ kept.map (reading memory) }, false) := by
  have within : ¬checkOverflow scan.cursor stop = true := by
    rw [checkOverflow, decide_eq_true_iff]
    omega
  rw [persistScan, if_neg within]
  split
  · rw [walk_of_path path]
  · rename_i nothing
    obtain rfl : kept = [] := by
      have bound := path.le
      exact List.eq_nil_of_length_eq_zero (by omega)
    rw [List.map_nil, List.append_nil]

theorem persistScan_of_far {stop : Nat} {scan : Scan} (buffer : SamplesBuffer)
    (far : stop + 128 ≤ scan.cursor) :
    (persistScan buffer memory stop scan).1.persisted = buffer.persisted := by
  have overflow : checkOverflow scan.cursor stop = true := decide_eq_true far
  rw [persistScan, if_pos overflow]
  split
  · rfl
  · rfl

theorem collectSamples_singleton {buffer persisted : SamplesBuffer} {counts : Counts}
    {range : Snapshot}
    (persists : persistScan buffer range.memory (guardedEnd range.first)
      (scanAll range.memory (guardedEnd range.first)
        (buffer.startScan range.first counts.staleSampleCount)) = (persisted, false)) :
    (collectSamples buffer counts [range]).1 = persisted ∧
      (collectSamples buffer counts [range]).2.isSome = true := by
  rw [collectSamples, persists]
  dsimp only
  split
  · exact ⟨rfl, rfl⟩
  · exact ⟨rfl, rfl⟩

theorem persistScan_fd (buffer : SamplesBuffer) (stop : Nat) (scan : Scan) :
    (persistScan buffer memory stop scan).1.fd = buffer.fd := by
  rw [persistScan]
  split
  · split
    · rfl
    · rfl
  · rfl

theorem collectSamples_fd (buffer : SamplesBuffer) (counts : Counts) (ranges : List Snapshot) :
    (collectSamples buffer counts ranges).1.fd = buffer.fd := by
  induction ranges generalizing buffer counts with
  | nil => rfl
  | cons range ranges ih =>
      have kept := @persistScan_fd range.memory buffer (guardedEnd range.first)
        (scanAll range.memory (guardedEnd range.first)
          (buffer.startScan range.first counts.staleSampleCount))
      rw [collectSamples]
      split
      · rename_i persisted overflow
        rw [overflow] at kept
        exact kept
      · rename_i persisted complete
        rw [complete] at kept
        split
        · exact (ih _ _).trans kept
        · exact (ih _ _).trans kept

theorem flush_fd (buffer : SamplesBuffer) (now : UInt64) (range : Snapshot) :
    (flush buffer now range).1.fd = buffer.fd := by
  have kept := @persistScan_fd range.memory buffer (guardedEnd range.first)
    (scanConsistent range.memory (guardedEnd range.first) 0 now (buffer.startScan range.first 0))
  rw [flush]
  split
  · rename_i persisted overflow
    rw [overflow] at kept
    exact kept
  · rename_i persisted complete
    rw [complete] at kept
    exact kept

end Collector

end Xpedite.Samples
