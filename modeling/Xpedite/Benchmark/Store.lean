import Mathlib.Data.List.Dedup
import Xpedite.Benchmark.Gather

/-!
What a benchmark keeps and what is read of it: the directories of the threads are stored where
those of the runs are looked for, so no sample of a stored benchmark is read again.
-/

namespace Xpedite.Benchmark

open Lib

def SampleFile.dirName (sampleFile : SampleFile) : Text :=
  threadDirName sampleFile.threadId sampleFile.tlsAddr

theorem eq_ok_of_mapError {ε δ α : Type} {f : ε → δ} {result : Except ε α} {value : α}
    (done : result.mapError f = .ok value) : result = .ok value := by
  cases result with
  | error cause => cases done
  | ok other => exact congrArg Except.ok (Except.ok.inj done)

section Made

variable {csvOf : Text → Text} {tree next : Tree} {root : Path}

theorem mkdir_spec {path : Path} (made : mkdir path tree = .ok next) (other : Path) :
    (other ≠ [] ∧ other <+: path → tree.content other = none) ∧
      next.lookup other =
        if other ≠ [] ∧ other <+: path then some .directory else tree.lookup other := by
  rw [mkdir] at made
  split at made
  · split at made
    case isTrue isDirectory =>
      cases made
      have above : other ≠ [] ∧ other <+: path → tree.isDir other = true :=
        fun front => FileTree.isDir_of_prefix isDirectory front.2
      refine ⟨fun front => FileTree.content_of_isDir front.1 (above front), ?_⟩
      split
      case isTrue front => exact (FileTree.isDir_iff.mp (above front)).resolve_left front.1
      case isFalse => rfl
    case isFalse => cases made
  · exact FileTree.makedirs_spec (eq_ok_of_mapError made) other

theorem storeSamples_spec {sampleFile : SampleFile}
    (stored : storeSamples csvOf root tree sampleFile = .ok next) :
    (∀ other, other ≠ [] ∧ other <+: root ++ [sampleFile.dirName] → tree.content other = none) ∧
      ∃ samples, tree.content sampleFile.path = some samples ∧ ∀ other, next.lookup other =
        if root ++ [sampleFile.dirName, samplesFileName] = other then some (.file (csvOf samples))
        else if other ≠ [] ∧ other <+: root ++ [sampleFile.dirName] then some .directory
        else tree.lookup other := by
  obtain ⟨_, placed, saved⟩ := bind_eq_ok stored
  obtain ⟨made, isMade, same⟩ := bind_eq_ok placed
  cases same
  have saved : saveAsCsv csvOf sampleFile.path
      (root ++ [sampleFile.dirName] ++ [samplesFileName]) made = .ok next := saved
  rw [saveAsCsv] at saved
  cases read : made.content sampleFile.path with
  | none =>
      rw [read] at saved
      cases saved
  | some samples =>
      rw [read] at saved
      have directories := fun other => (mkdir_spec isMade other).2
      refine ⟨fun other => (mkdir_spec isMade other).1, samples, ?_, ?_⟩
      · rw [FileTree.content_eq_some_iff, directories] at read
        split at read
        · cases read
        · exact FileTree.content_eq_some_iff.mpr read
      · intro other
        rw [FileTree.lookup_write (eq_ok_of_mapError saved) other, directories, List.append_assoc]
        rfl

/-- The directories of the threads with their only files, and nothing else yet. -/
structure Laid (root : Path) (dirNames : List Text) (tree : Tree) : Prop where
  threads : ∀ name, tree.lookup (root ++ [name]) =
    if name ∈ dirNames then some .directory else none
  samples : ∀ name ∈ dirNames, ∀ fileName,
    (tree.lookup (root ++ [name, fileName])).isSome ↔ fileName = samplesFileName
  files : ∀ name, tree.isDir (root ++ [name, samplesFileName]) = false

variable {dirNames : List Text}

theorem laid_fresh (missing : tree.lookup root = none) (nonempty : root ≠ []) :
    Laid root [] tree := by
  have notDirectory : tree.isDir root = false := by
    rw [Bool.eq_false_iff, Ne, FileTree.isDir_iff]
    simp [missing, nonempty]
  have nothing : ∀ more ≠ [], tree.lookup (root ++ more) = none :=
    fun more => FileTree.lookup_below notDirectory
  refine ⟨fun name => by simp [nothing], by simp, fun name => ?_⟩
  rw [Bool.eq_false_iff, Ne, FileTree.isDir_iff]
  simp [nothing]

theorem Laid.store (laid : Laid root dirNames tree) {sampleFile : SampleFile}
    (stored : storeSamples csvOf root tree sampleFile = .ok next) :
    Laid root (dirNames ++ [sampleFile.dirName]) next := by
  obtain ⟨-, samples, -, after⟩ := storeSamples_spec stored
  have two : ∀ name fileName, next.lookup (root ++ [name, fileName]) =
      if sampleFile.dirName = name ∧ samplesFileName = fileName then some (.file (csvOf samples))
      else tree.lookup (root ++ [name, fileName]) := by
    intro name fileName
    rw [after]
    refine if_congr (by simp) rfl (if_neg ?_)
    rintro ⟨-, shorter⟩
    have length := shorter.length_le
    simp at length
  constructor
  · intro name
    rw [after, if_neg (fun same => by simpa using congrArg List.length same), laid.threads]
    simp only [List.prefix_append_right_inj, List.cons_prefix_cons, List.nil_prefix, and_true,
      List.mem_append, List.mem_singleton]
    by_cases own : name = sampleFile.dirName <;> simp [own]
  · intro name member fileName
    rw [two]
    by_cases own : sampleFile.dirName = name ∧ samplesFileName = fileName
    · simp [own]
    · rw [if_neg own]
      by_cases old : name ∈ dirNames
      · exact laid.samples name old fileName
      · -- the directory is new, so only the file that was written is in it
        have isOwn : name = sampleFile.dirName := by simpa [old] using member
        have notDirectory : tree.isDir (root ++ [name]) = false := by
          rw [Bool.eq_false_iff, Ne, FileTree.isDir_iff]
          simp [laid.threads, old]
        have nothing := FileTree.lookup_below notDirectory (List.cons_ne_nil fileName [])
        rw [List.append_assoc, List.singleton_append] at nothing
        simp only [nothing, Option.isSome_none, Bool.false_eq_true, false_iff]
        exact fun same => own ⟨isOwn.symm, same.symm⟩
  · intro name
    have before := laid.files name
    rw [Bool.eq_false_iff, Ne, FileTree.isDir_iff] at before ⊢
    rw [two]
    split
    · simp
    · exact before

theorem Laid.foldlM {files : List SampleFile} (laid : Laid root dirNames tree)
    (stored : files.foldlM (storeSamples csvOf root) tree = .ok next) :
    Laid root (dirNames ++ files.map SampleFile.dirName) next := by
  induction files generalizing tree dirNames with
  | nil =>
      cases stored
      simpa using laid
  | cons sampleFile files ih =>
      rw [List.foldlM_cons] at stored
      obtain ⟨middle, first, rest⟩ := bind_eq_ok stored
      simpa using ih (laid.store first) rest

theorem content_of_foldlM {files : List SampleFile} {name : Text} {content : Text}
    (apart : name ∉ files.map SampleFile.dirName)
    (before : tree.content (root ++ [name, samplesFileName]) = some content)
    (stored : files.foldlM (storeSamples csvOf root) tree = .ok next) :
    next.content (root ++ [name, samplesFileName]) = some content := by
  induction files generalizing tree with
  | nil =>
      cases stored
      exact before
  | cons sampleFile files ih =>
      rw [List.foldlM_cons] at stored
      obtain ⟨middle, first, rest⟩ := bind_eq_ok stored
      rw [List.map_cons, List.mem_cons, not_or] at apart
      obtain ⟨-, _, -, after⟩ := storeSamples_spec first
      refine ih apart.2 ?_ rest
      rw [FileTree.content_eq_some_iff] at before ⊢
      rw [after, if_neg (by simpa using Ne.symm apart.1), if_neg, before]
      rintro ⟨-, shorter⟩
      have length := shorter.length_le
      simp at length

theorem content_of_outside {sampleFile : SampleFile} {path : Path} {content : Text}
    (outside : ¬root <+: path) (before : tree.content path = some content)
    (stored : storeSamples csvOf root tree sampleFile = .ok next) :
    next.content path = some content := by
  obtain ⟨clear, _, -, after⟩ := storeSamples_spec stored
  rw [FileTree.content_eq_some_iff] at before ⊢
  have elsewhere : root ++ [sampleFile.dirName, samplesFileName] ≠ path := by
    rintro rfl
    exact outside (List.prefix_append _ _)
  rw [after, if_neg elsewhere, if_neg, before]
  intro front
  have noFile := clear path front
  rw [FileTree.content_eq_some_iff.mpr before] at noFile
  cases noFile

theorem content_of_stored {files : List SampleFile}
    (distinct : (files.map SampleFile.dirName).Nodup)
    (stored : files.foldlM (storeSamples csvOf root) tree = .ok next) {sampleFile : SampleFile}
    (member : sampleFile ∈ files) {samples : Text} (outside : ¬root <+: sampleFile.path)
    (before : tree.content sampleFile.path = some samples) :
    next.content (root ++ [sampleFile.dirName, samplesFileName]) = some (csvOf samples) := by
  induction files generalizing tree with
  | nil => cases member
  | cons first files ih =>
      rw [List.foldlM_cons] at stored
      obtain ⟨middle, taken, rest⟩ := bind_eq_ok stored
      rw [List.map_cons, List.nodup_cons] at distinct
      rcases List.mem_cons.mp member with rfl | later
      · obtain ⟨-, found, read, after⟩ := storeSamples_spec taken
        obtain rfl : samples = found := Option.some.inj (before.symm.trans read)
        refine content_of_foldlM distinct.1 ?_ rest
        rw [FileTree.content_eq_some_iff, after, if_pos rfl]
      · exact ih distinct.2 rest later (content_of_outside outside before taken)

theorem copyfile_spec {source dest : Path} (copied : copyfile source dest tree = .ok next) :
    ∃ content, tree.isDir dest.dropLast = true ∧ ∀ other,
      next.lookup other = if dest = other then some (.file content) else tree.lookup other := by
  rw [copyfile] at copied
  split at copied
  · cases copied
  · have written := eq_ok_of_mapError copied
    exact ⟨_, FileTree.isDir_of_write written, FileTree.lookup_write written⟩

end Made

section Stored

variable {csvOf : Text → Text} {format : ConfigFormat} {today : Text} {profiles : Profiles}
  {path : Path} {tree next : Tree}

theorem makeBenchmark_cases
    (made : makeBenchmark csvOf format today profiles path tree = .ok next) :
    tree.lookup (path ++ [benchmarkDirName]) = none ∧ ∃ laid appInfo info,
      profiles.dataSource.files.foldlM (storeSamples csvOf (path ++ [benchmarkDirName])) tree =
        .ok laid ∧
      laid.isDir (path ++ [benchmarkDirName]) = true ∧ ∀ other, next.lookup other =
        if path ++ [benchmarkDirName] ++ [benchmarkFileName] = other then some (.file info)
        else if path ++ [benchmarkDirName] ++ [appInfoFileName] = other then some (.file appInfo)
        else laid.lookup other := by
  simp only [makeBenchmark] at made
  split at made
  · cases made
  · rename_i absent
    obtain ⟨laid, folded, made⟩ := bind_eq_ok made
    obtain ⟨copied, copies, made⟩ := bind_eq_ok made
    obtain ⟨config, -, written⟩ := bind_eq_ok made
    obtain ⟨appInfo, inDirectory, isCopied⟩ := copyfile_spec copies
    rw [List.dropLast_concat] at inDirectory
    refine ⟨by simpa using absent, laid, appInfo, format.write config, folded, inDirectory, ?_⟩
    intro other
    rw [FileTree.lookup_write (eq_ok_of_mapError written), isCopied]

theorem mem_dirName (sampleFile : SampleFile) : '-' ∈ sampleFile.dirName := by
  simp [SampleFile.dirName, threadDirName]

theorem benchmarkFileName_plain : '-' ∉ benchmarkFileName := by decide

theorem appInfoFileName_plain : '-' ∉ appInfoFileName := by decide

structure Made (root : Path) (dirNames : List Text) (tree : Tree) : Prop where
  full : dirNames ≠ []
  threads : ∀ name, tree.isDir (root ++ [name]) = true ↔ name ∈ dirNames
  samples : ∀ name ∈ dirNames, tree.listdir (root ++ [name]) = [samplesFileName]
  files : ∀ name ∈ dirNames, tree.isDir (root ++ [name, samplesFileName]) = false
  appInfo : (tree.content (root ++ [appInfoFileName])).isSome

theorem made_of_makeBenchmark
    (made : makeBenchmark csvOf format today profiles path tree = .ok next) :
    Made (path ++ [benchmarkDirName]) (profiles.dataSource.files.map SampleFile.dirName) next := by
  obtain ⟨missing, middle, appInfo, info, folded, isDirectory, after⟩ := makeBenchmark_cases made
  have laid := (laid_fresh missing (by simp)).foldlM folded
  rw [List.nil_append] at laid
  have two : ∀ name fileName, next.lookup (path ++ [benchmarkDirName] ++ [name, fileName]) =
      middle.lookup (path ++ [benchmarkDirName] ++ [name, fileName]) := by
    intro name fileName
    rw [after, if_neg (by simp), if_neg (by simp)]
  refine ⟨?_, ?_, ?_, ?_, ?_⟩
  · intro none
    rw [List.map_eq_nil_iff] at none
    rw [none] at folded
    cases folded
    rw [FileTree.isDir_iff, missing] at isDirectory
    simp at isDirectory
  · intro name
    have named : next.lookup (path ++ [benchmarkDirName] ++ [name]) =
        if name = benchmarkFileName then some (.file info)
        else if name = appInfoFileName then some (.file appInfo)
        else if name ∈ profiles.dataSource.files.map SampleFile.dirName then some .directory
        else none := by
      rw [after, laid.threads]
      simp [eq_comm]
    rw [FileTree.isDir_iff, named]
    constructor
    · intro isThread
      by_contra other
      rw [if_neg other] at isThread
      split_ifs at isThread <;> simp at isThread
    · intro member
      obtain ⟨sampleFile, -, rfl⟩ := List.mem_map.mp member
      have notInfo : sampleFile.dirName ≠ benchmarkFileName := by
        intro same
        exact benchmarkFileName_plain (same ▸ mem_dirName sampleFile)
      have notAppInfo : sampleFile.dirName ≠ appInfoFileName := by
        intro same
        exact appInfoFileName_plain (same ▸ mem_dirName sampleFile)
      rw [if_neg notInfo, if_neg notAppInfo, if_pos member]
      exact .inr rfl
  · intro name member
    have single : (next.listdir (path ++ [benchmarkDirName] ++ [name])).Perm [samplesFileName] := by
      refine (List.perm_ext_iff_of_nodup (FileTree.nodup_listdir _ _)
        (List.nodup_singleton _)).mpr fun fileName => ?_
      rw [FileTree.mem_listdir_iff, List.append_assoc _ [name], List.singleton_append, two,
        laid.samples name member, List.mem_singleton]
    exact List.perm_singleton.mp single
  · intro name member
    have before := laid.files name
    rw [Bool.eq_false_iff, Ne, FileTree.isDir_iff] at before ⊢
    rwa [two]
  · rw [FileTree.content, after, if_neg (by simp; decide), if_pos rfl]
    rfl

variable {root : Path} {dirNames : List Text}

theorem Made.directoriesIn_perm (made : Made root dirNames tree) :
    (directoriesIn root tree).Perm dirNames.dedup := by
  have distinct : (directoriesIn root tree).Nodup := (FileTree.nodup_listdir tree root).filter _
  refine (List.perm_ext_iff_of_nodup distinct dirNames.nodup_dedup).mpr fun name => ?_
  rw [mem_directoriesIn_iff, made.threads, List.mem_dedup]

theorem Made.gatherSampleFiles_eq (made : Made root dirNames tree) {directory : Text}
    (member : directory ∈ dirNames) : gatherSampleFiles (root ++ [directory]) tree = .ok [] := by
  have fields : split ['-'] samplesFileName = ["samples".toList, "0000.csv".toList] := by decide
  have notDirectory : tree.isDir (root ++ [directory] ++ [samplesFileName]) = false := by
    rw [List.append_assoc]
    exact made.files directory member
  have single : gatherThread (root ++ [directory]) [samplesFileName] tree samplesFileName =
      .ok [] := by
    simp only [gatherThread, fields, notDirectory]
    rfl
  have sorted : sortBy id [samplesFileName] = [samplesFileName] := rfl
  rw [gatherSampleFiles, made.samples directory member, sorted, List.mapM_cons, single]
  rfl

theorem Made.gather_eq (made : Made root dirNames tree) :
    gather root tree =
      .ok (if dirNames.dedup.length = 1 then some ⟨root ++ [appInfoFileName], []⟩ else none) := by
  have perm := made.directoriesIn_perm
  have present : (tree.content (root ++ [appInfoFileName])).isNone = false := by
    simpa using made.appInfo
  rw [gather, present, ← perm.length_eq]
  cases found : directoriesIn root tree with
  | nil =>
      rw [found] at perm
      obtain ⟨name, member⟩ := List.exists_mem_of_ne_nil _ made.full
      exact absurd (perm.mem_iff.mpr (List.mem_dedup.mpr member)) List.not_mem_nil
  | cons directory others =>
      cases others with
      | nil =>
          rw [found] at perm
          have member := List.mem_dedup.mp (perm.mem_iff.mp List.mem_cons_self)
          simp only [made.gatherSampleFiles_eq member]
          rfl
      | cons second rest => simp

theorem gather_of_gatherBenchmark {benchmark : StoredBenchmark}
    (gathered : gatherBenchmark format root tree = .ok (some benchmark)) :
    gather root tree = .ok (some benchmark.dataSource) := by
  obtain ⟨info, -, gathered⟩ := bind_eq_ok gathered
  cases info with
  | none => cases gathered
  | some info =>
      obtain ⟨dataSource, found, same⟩ := bind_eq_ok gathered
      cases dataSource with
      | none => cases same
      | some dataSource =>
          cases same
          exact found

theorem mem_gatherFrom {count : Nat} {paths : List Path} {benchmarks final : List StoredBenchmark}
    (gathered : gatherFrom format count tree benchmarks paths = .ok final)
    {benchmark : StoredBenchmark} (member : benchmark ∈ final) :
    benchmark ∈ benchmarks ∨
      ∃ path ∈ paths, gather (path ++ [benchmarkDirName]) tree = .ok (some benchmark.dataSource) := by
  induction paths generalizing benchmarks with
  | nil =>
      cases gathered
      exact .inl member
  | cons path paths ih =>
      have later : ∀ {benchmarks}, gatherFrom format count tree benchmarks paths = .ok final →
          benchmark ∈ benchmarks ∨ ∃ other ∈ path :: paths,
            gather (other ++ [benchmarkDirName]) tree = .ok (some benchmark.dataSource) := by
        intro benchmarks gathered
        exact (ih gathered).imp_right fun ⟨other, inside, found⟩ =>
          ⟨other, List.mem_cons_of_mem path inside, found⟩
      rw [gatherFrom] at gathered
      split at gathered
      case isTrue =>
        obtain ⟨found, taken, gathered⟩ := bind_eq_ok gathered
        have here : benchmark ∈ benchmarks ++ found.toList → benchmark ∈ benchmarks ∨
            ∃ other ∈ path :: paths,
              gather (other ++ [benchmarkDirName]) tree = .ok (some benchmark.dataSource) := by
          rw [List.mem_append, Option.mem_toList]
          rintro (old | rfl)
          · exact .inl old
          · exact .inr ⟨path, List.mem_cons_self, gather_of_gatherBenchmark taken⟩
        dsimp only at gathered
        split at gathered
        · cases gathered
          exact here member
        · rcases later gathered with inside | found
          · exact here inside
          · exact .inr found
      case isFalse => exact later gathered

/--
The samples of the threads are stored, and gathering the benchmark finds none of them: with one
thread its directory is taken for the one of a run, with more the benchmark is skipped.
-/
theorem stored_samples_not_gathered
    (made : makeBenchmark csvOf format today profiles path tree = .ok next) :
    ((profiles.dataSource.files.map SampleFile.dirName).Nodup →
      ∀ sampleFile ∈ profiles.dataSource.files, ∀ samples,
        tree.content sampleFile.path = some samples →
          next.content (path ++ [benchmarkDirName] ++ [sampleFile.dirName, samplesFileName]) =
            some (csvOf samples)) ∧
    gather (path ++ [benchmarkDirName]) next =
      .ok (if (profiles.dataSource.files.map SampleFile.dirName).dedup.length = 1 then
        some ⟨path ++ [benchmarkDirName] ++ [appInfoFileName], []⟩ else none) ∧
    ∀ count paths benchmarks, gatherBenchmarks format count paths next = .ok benchmarks →
      ∀ benchmark ∈ benchmarks,
        benchmark.dataSource.appInfoPath = path ++ [benchmarkDirName] ++ [appInfoFileName] →
          benchmark.dataSource.files = [] := by
  have gathers := (made_of_makeBenchmark made).gather_eq
  refine ⟨?_, gathers, ?_⟩
  · intro distinct sampleFile member samples before
    obtain ⟨missing, middle, appInfo, info, folded, -, after⟩ := makeBenchmark_cases made
    have outside : ¬path ++ [benchmarkDirName] <+: sampleFile.path := by
      rintro ⟨more, same⟩
      have notDirectory : tree.isDir (path ++ [benchmarkDirName]) = false := by
        rw [Bool.eq_false_iff, Ne, FileTree.isDir_iff]
        simp [missing]
      have read := FileTree.content_eq_some_iff.mp before
      rw [← same] at read
      cases more with
      | nil =>
          rw [List.append_nil, missing] at read
          cases read
      | cons name more =>
          rw [FileTree.lookup_below notDirectory (List.cons_ne_nil name more)] at read
          cases read
    have stored := content_of_stored distinct folded member outside before
    rw [FileTree.content_eq_some_iff] at stored ⊢
    rw [after, if_neg (by simp), if_neg (by simp), stored]
  · intro count paths benchmarks gathered benchmark member same
    rcases mem_gatherFrom gathered member with none | ⟨other, -, found⟩
    · cases none
    · have there := (gather_cases found).1
      rw [same] at there
      obtain rfl : path = other := List.append_cancel_right (List.append_cancel_right there)
      rw [gathers] at found
      split at found
      · exact (congrArg DataSource.files (Option.some.inj (Except.ok.inj found))).symm
      · cases found

end Stored

def twoThreads : Profiles where
  dataSource := {
    appInfoPath := ["app".toList]
    files := [⟨"7".toList, "a0".toList, ["7.data".toList], .binary⟩,
      ⟨"8".toList, "b0".toList, ["8.data".toList], .binary⟩] }
  cpuInfo := { cpuId := "GenuineIntel-6-55".toList, frequency := 2400000000 }
  events := none

def headerOnly (_ : Text) : Text := "Tsc,ReturnSite,Data\n".toList

def nothingKept : ConfigFormat where
  write _ := []
  read _ := .error .unreadable

def recorded : Except StoreError Tree := do
  let tree ← (FileTree.empty.write ["7.data".toList] []).mapError .refused
  let tree ← (tree.write ["8.data".toList] []).mapError .refused
  (tree.write ["app".toList] []).mapError .refused

theorem stored_samples_not_gathered_twoThreads : ∃ tree next,
    makeBenchmark headerOnly nothingKept [] twoThreads ["report".toList] tree = .ok next ∧
    (twoThreads.dataSource.files.map SampleFile.dirName).Nodup ∧
    gather (["report".toList] ++ [benchmarkDirName]) next = .ok none := by
  obtain ⟨next, made⟩ := exists_eq_ok (show (recorded.bind fun tree =>
    makeBenchmark headerOnly nothingKept [] twoThreads ["report".toList] tree).toBool = true by
      decide +kernel)
  obtain ⟨tree, -, made⟩ := bind_eq_ok made
  obtain ⟨-, gathers, -⟩ := stored_samples_not_gathered made
  have two : (twoThreads.dataSource.files.map SampleFile.dirName).dedup.length = 2 := by
    decide +kernel
  rw [two] at gathers
  exact ⟨tree, next, made, by decide +kernel, gathers⟩

end Xpedite.Benchmark
