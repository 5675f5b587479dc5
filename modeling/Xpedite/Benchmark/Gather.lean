import Xpedite.Benchmark.StoreCore
import Xpedite.Lib.Fallible

/-!
What `gather` reads of a benchmark with a directory for its run: every file of samples in the
directories of the threads, once, in the order of the threads and of the numbers of their files.
-/

namespace Xpedite.Benchmark

open Lib

def Numbered (first second : Text) : Prop :=
  ∃ smaller larger, orderByName first = .ok smaller ∧ orderByName second = .ok larger ∧
    smaller ≤ larger

theorem sortByName_spec {fileNames sorted : List Text}
    (done : sortByName fileNames = .ok sorted) :
    sorted.Perm fileNames ∧ sorted.Pairwise Numbered := by
  obtain ⟨numbered, each, same⟩ := bind_eq_ok done
  cases same
  obtain ⟨entryOf, rfl, made⟩ := exists_map_of_mapM each
  have entries : ∀ fileName ∈ fileNames, (entryOf fileName).2 = fileName ∧
      orderByName fileName = .ok (entryOf fileName).1 := by
    intro fileName member
    obtain ⟨number, ordered, same⟩ := bind_eq_ok (made fileName member)
    have entry : (number, fileName) = entryOf fileName := Except.ok.inj same
    rw [← entry]
    exact ⟨rfl, ordered⟩
  have perm := sortBy_perm Prod.fst (fileNames.map entryOf)
  constructor
  · have names : (fileNames.map entryOf).map Prod.snd = fileNames := by
      have each : ∀ fileName ∈ fileNames, (Prod.snd ∘ entryOf) fileName = id fileName :=
        fun fileName member => (entries fileName member).1
      rw [List.map_map, List.map_congr_left each, List.map_id]
    simpa only [names] using perm.map Prod.snd
  · rw [List.pairwise_map]
    refine List.Pairwise.imp_of_mem ?_ (sortBy_pairwise Prod.fst (fileNames.map entryOf))
    intro first second isFirst isSecond le
    obtain ⟨firstName, inFirst, rfl⟩ := List.mem_map.mp (perm.mem_iff.mp isFirst)
    obtain ⟨secondName, inSecond, rfl⟩ := List.mem_map.mp (perm.mem_iff.mp isSecond)
    refine ⟨_, _, ?_, ?_, le⟩
    · rw [(entries firstName inFirst).1, (entries firstName inFirst).2]
    · rw [(entries secondName inSecond).1, (entries secondName inSecond).2]

variable {tree : Tree} {base : Path} {sampleDirs : List Text}

def Precedes (base : Path) (first second : SampleFile) : Prop :=
  ∃ firstThread firstName secondThread secondName,
    first.path = base ++ [firstThread, firstName] ∧
    second.path = base ++ [secondThread, secondName] ∧
    (firstThread < secondThread ∨
      firstThread = secondThread ∧ firstName ≠ secondName ∧ Numbered firstName secondName)

structure OfThread (tree : Tree) (base : Path) (threadInfo : Text) (files : List SampleFile) :
    Prop where
  paths : ∀ filePath, filePath ∈ files.map SampleFile.path ↔ ∃ fileName,
    filePath = base ++ [threadInfo, fileName] ∧ csvFileWildcard fileName = true ∧
      (tree.lookup filePath).isSome
  named : ∀ file ∈ files, ∃ fileName, file.path = base ++ [threadInfo, fileName] ∧
    [file.threadId, file.tlsAddr] <+: split ['-'] threadInfo ∧ file.fmt = .csv
  ordered : files.Pairwise (Precedes base)

theorem ofThread_of_gatherThread {threadInfo : Text} {files : List SampleFile}
    (done : gatherThread base sampleDirs tree threadInfo = .ok files) :
    OfThread tree base threadInfo files := by
  have place : ∀ fileName, base ++ [threadInfo] ++ [fileName] = base ++ [threadInfo, fileName] := by
    simp
  rw [gatherThread] at done
  split at done
  case h_1 threadId tlsAddr rest fields =>
    dsimp only at done
    split at done
    case isTrue =>
      obtain ⟨fileNames, sorted, same⟩ := bind_eq_ok done
      cases same
      obtain ⟨perm, ordered⟩ := sortByName_spec sorted
      have distinct : fileNames.Nodup :=
        perm.nodup_iff.mpr ((FileTree.nodup_listdir tree _).filter _)
      refine ⟨?_, ?_, ?_⟩
      · intro filePath
        simp only [List.map_map, List.mem_map, Function.comp_def, perm.mem_iff, List.mem_filter,
          FileTree.mem_listdir_iff, place]
        constructor
        · rintro ⟨fileName, ⟨present, isSamples⟩, rfl⟩
          exact ⟨fileName, rfl, isSamples, present⟩
        · rintro ⟨fileName, rfl, isSamples, present⟩
          exact ⟨fileName, ⟨present, isSamples⟩, rfl⟩
      · intro file member
        obtain ⟨fileName, -, rfl⟩ := List.mem_map.mp member
        exact ⟨fileName, place fileName, fields ▸ ⟨rest, rfl⟩, rfl⟩
      · rw [List.pairwise_map]
        refine (distinct.and ordered).imp ?_
        rintro first second ⟨differ, numbered⟩
        exact ⟨threadInfo, first, threadInfo, second, place first, place second,
          .inr ⟨rfl, differ, numbered⟩⟩
    case isFalse missing =>
      cases done
      refine ⟨?_, by simp, .nil⟩
      simp only [List.map_nil, List.not_mem_nil, false_iff]
      rintro filePath ⟨fileName, rfl, -, present⟩
      have nothing := FileTree.lookup_below (by simpa using missing) (List.cons_ne_nil fileName [])
      rw [place] at nothing
      rw [nothing] at present
      cases present
  case h_2 => cases done

theorem gatherSampleFiles_spec {files : List SampleFile}
    (done : gatherSampleFiles base tree = .ok files) :
    (∀ filePath, filePath ∈ files.map SampleFile.path ↔ ∃ threadInfo fileName,
      filePath = base ++ [threadInfo, fileName] ∧ csvFileWildcard fileName = true ∧
        (tree.lookup filePath).isSome) ∧
    (∀ file ∈ files, ∃ threadInfo fileName, file.path = base ++ [threadInfo, fileName] ∧
      [file.threadId, file.tlsAddr] <+: split ['-'] threadInfo ∧ file.fmt = .csv) ∧
    files.Pairwise (Precedes base) := by
  obtain ⟨results, each, same⟩ := bind_eq_ok done
  cases same
  obtain ⟨filesOf, rfl, made⟩ := exists_map_of_mapM each
  have spec := fun threadInfo member => ofThread_of_gatherThread (made threadInfo member)
  have perm := sortBy_perm id (tree.listdir base)
  rw [← List.flatMap_def]
  refine ⟨?_, ?_, ?_⟩
  · intro filePath
    rw [List.map_flatMap, List.mem_flatMap]
    constructor
    · rintro ⟨threadInfo, inside, isFile⟩
      obtain ⟨fileName, found⟩ := ((spec threadInfo inside).paths filePath).mp isFile
      exact ⟨threadInfo, fileName, found⟩
    · rintro ⟨threadInfo, fileName, rfl, isSamples, present⟩
      have isDirectory : tree.isDir (base ++ [threadInfo]) = true := by
        by_contra missing
        have nothing := FileTree.lookup_below (by simpa using missing)
          (List.cons_ne_nil fileName [])
        rw [List.append_assoc, List.singleton_append] at nothing
        rw [nothing] at present
        cases present
      have inside : threadInfo ∈ sortBy id (tree.listdir base) := by
        rw [perm.mem_iff, FileTree.mem_listdir_iff,
          (FileTree.isDir_iff.mp isDirectory).resolve_left (by simp)]
        rfl
      exact ⟨threadInfo, inside,
        ((spec threadInfo inside).paths _).mpr ⟨fileName, rfl, isSamples, present⟩⟩
  · intro file member
    obtain ⟨threadInfo, inside, isFile⟩ := List.mem_flatMap.mp member
    obtain ⟨fileName, named⟩ := (spec threadInfo inside).named file isFile
    exact ⟨threadInfo, fileName, named⟩
  · refine List.pairwise_flatMap.mpr ⟨fun threadInfo inside => (spec threadInfo inside).ordered, ?_⟩
    have distinct := perm.nodup_iff.mpr (FileTree.nodup_listdir tree base)
    refine List.Pairwise.imp_of_mem ?_ (distinct.and (sortBy_pairwise id (tree.listdir base)))
    rintro firstThread secondThread inFirst inSecond ⟨differ, le⟩ first isFirst second isSecond
    obtain ⟨firstName, firstPath, -⟩ := (spec firstThread inFirst).named first isFirst
    obtain ⟨secondName, secondPath, -⟩ := (spec secondThread inSecond).named second isSecond
    exact ⟨firstThread, firstName, secondThread, secondName, firstPath, secondPath,
      .inl (lt_of_le_of_ne le differ)⟩

theorem mem_directoriesIn_iff {name : Text} :
    name ∈ directoriesIn base tree ↔ tree.isDir (base ++ [name]) = true := by
  rw [directoriesIn, List.mem_filter, FileTree.mem_listdir_iff]
  refine and_iff_right_of_imp fun isDirectory => ?_
  rw [(FileTree.isDir_iff.mp isDirectory).resolve_left (by simp)]
  rfl

theorem gather_cases {dataSource : DataSource}
    (gathered : gather base tree = .ok (some dataSource)) :
    dataSource.appInfoPath = base ++ [appInfoFileName] ∧ ∃ run, directoriesIn base tree = [run] ∧
      gatherSampleFiles (base ++ [run]) tree = .ok dataSource.files := by
  rw [gather] at gathered
  split at gathered
  · cases gathered
  · split at gathered
    case h_1 => cases gathered
    case h_2 run only =>
      obtain ⟨files, read, same⟩ := bind_eq_ok gathered
      cases same
      exact ⟨rfl, run, only, read⟩
    case h_3 => cases gathered

/-- Every file of samples of the only run is read once, in the order of threads and numbers. -/
theorem gather_reads_every_file {dataSource : DataSource}
    (gathered : gather base tree = .ok (some dataSource)) :
    ∃ run, (∀ name, tree.isDir (base ++ [name]) = true ↔ name = run) ∧
      (∀ filePath, filePath ∈ dataSource.files.map SampleFile.path ↔ ∃ threadInfo fileName,
        filePath = base ++ [run] ++ [threadInfo, fileName] ∧ csvFileWildcard fileName = true ∧
          (tree.lookup filePath).isSome) ∧
      (∀ file ∈ dataSource.files, ∃ threadInfo fileName,
        file.path = base ++ [run] ++ [threadInfo, fileName] ∧
        [file.threadId, file.tlsAddr] <+: split ['-'] threadInfo ∧ file.fmt = .csv) ∧
      dataSource.files.Pairwise (Precedes (base ++ [run])) := by
  obtain ⟨-, run, only, read⟩ := gather_cases gathered
  refine ⟨run, ?_, gatherSampleFiles_spec read⟩
  intro name
  rw [← mem_directoriesIn_iff, only, List.mem_singleton]

/-- Two files of one thread that were written in the order of their names, not of their numbers. -/
def runStored : Except Path Tree := do
  let tree ← FileTree.empty.makedirs ["17".toList, "7-a0".toList]
  let tree ← tree.write ["17".toList, "7-a0".toList, "samples-10.csv".toList] []
  let tree ← tree.write ["17".toList, "7-a0".toList, "samples-2.csv".toList] []
  tree.write [appInfoFileName] []

def twoFiles : List SampleFile :=
  [⟨"7".toList, "a0".toList, ["17".toList, "7-a0".toList, "samples-2.csv".toList], .csv⟩,
    ⟨"7".toList, "a0".toList, ["17".toList, "7-a0".toList, "samples-10.csv".toList], .csv⟩]

theorem gather_reads_every_file_twoFiles : ∃ tree dataSource, runStored = .ok tree ∧
    gather [] tree = .ok (some dataSource) ∧ dataSource.files = twoFiles ∧
    ∃ run, ∀ filePath, filePath ∈ dataSource.files.map SampleFile.path ↔ ∃ threadInfo fileName,
      filePath = [] ++ [run] ++ [threadInfo, fileName] ∧ csvFileWildcard fileName = true ∧
        (tree.lookup filePath).isSome := by
  have gathers : (runStored.toOption.map fun tree =>
      (gather [] tree).toOption.map (Option.map DataSource.files)) = some (some (some twoFiles)) := by
    decide +kernel
  cases stored : runStored with
  | error place =>
      rw [stored] at gathers
      cases gathers
  | ok tree =>
      rw [stored] at gathers
      rcases found : gather [] tree with cause | _ | dataSource
      · simp [found, Except.toOption] at gathers
      · simp [found, Except.toOption] at gathers
      · obtain ⟨run, -, all, -⟩ := gather_reads_every_file found
        have files : dataSource.files = twoFiles := by
          simpa only [found, Except.toOption, Option.map_some, Option.some_inj] using gathers
        exact ⟨tree, dataSource, rfl, found, files, run, all⟩

end Xpedite.Benchmark
