import Mathlib.Data.Char
import Mathlib.Data.List.Lex
import Xpedite.Benchmark.InfoCore
import Xpedite.Lib.FileTree
import Xpedite.Lib.Pattern
import Xpedite.Lib.StableSort

/-!
The store of benchmarks: `makeBenchmark` and `BenchmarksCollector` of `xpedite/benchmark`, and
`CsvDataSourceFactory` of `xpedite/types/dataSource.py`, over a tree of files.  `csvOf` is the text
that `SamplesLoader.saveAsCsv` makes of a samples file.
-/

namespace Xpedite.Benchmark

open Lib
open Profiler (Event)

abbrev Path := List Text

abbrev Tree := FileTree Text Text

inductive SampleFileFormat where
  | binary
  | csv
  deriving DecidableEq

structure SampleFile where
  threadId : Text
  tlsAddr : Text
  path : Path
  fmt : SampleFileFormat
  deriving DecidableEq

structure DataSource where
  appInfoPath : Path
  files : List SampleFile
  deriving DecidableEq

inductive StoreError where
  | alreadyExists (path : Path)
  -- the operating system's refusal to make or write what is at the path
  | refused (path : Path)
  | noSuchFile (path : Path)
  | indexOutOfRange
  | missingTls (sampleDirs : List Text) (threadInfo : Text)
  | noSequenceNo (fileName : Text)
  | info (error : InfoError)
  deriving DecidableEq

def appInfoFileName : Text := "appinfo.txt".toList
def benchmarkDirName : Text := "benchmark".toList
def samplesFileName : Text := "samples-0000.csv".toList

def threadDirName (threadId tlsAddr : Text) : Text := threadId ++ '-' :: tlsAddr

section Make

def mkdir (path : Path) (tree : Tree) : Except StoreError Tree :=
  if (tree.lookup path).isSome then
    if tree.isDir path then .ok tree else .error (.refused path)
  else (tree.makedirs path).mapError .refused

def makeSampleFilePath (path : Path) (threadId tlsAddr : Text) (tree : Tree) :
    Except StoreError (Path × Tree) := do
  let path := path ++ [threadDirName threadId tlsAddr]
  let tree ← mkdir path tree
  return (path ++ [samplesFileName], tree)

def saveAsCsv (csvOf : Text → Text) (samplesPath dest : Path) (tree : Tree) :
    Except StoreError Tree :=
  match tree.content samplesPath with
  | none => .error (.noSuchFile samplesPath)
  | some samples => (tree.write dest (csvOf samples)).mapError .refused

def copyfile (source dest : Path) (tree : Tree) : Except StoreError Tree :=
  match tree.content source with
  | none => .error (.noSuchFile source)
  | some content => (tree.write dest content).mapError .refused

/-- What `makeBenchmark` uses of the profiles and of the current collection of transactions. -/
structure Profiles where
  dataSource : DataSource
  cpuInfo : CpuInfo
  events : Option (List Event)

variable (csvOf : Text → Text) (format : ConfigFormat) (today : Text)

def storeSamples (path : Path) (tree : Tree) (sampleFile : SampleFile) :
    Except StoreError Tree := do
  let (sampleFilePath, tree) ← makeSampleFilePath path sampleFile.threadId sampleFile.tlsAddr tree
  saveAsCsv csvOf sampleFile.path sampleFilePath tree

/-- `makeBenchmarkInfo` for a path in the tree. -/
def storeInfo (benchmarkName : Text) (path : Path) (cpuInfo : CpuInfo)
    (events : Option (List Event)) (tree : Tree) : Except StoreError Tree := do
  let config ← (benchmarkConfig today benchmarkName cpuInfo events).mapError .info
  (tree.write (path ++ [benchmarkFileName]) (format.write config)).mapError .refused

def makeBenchmark (profiles : Profiles) (path : Path) (tree : Tree) : Except StoreError Tree := do
  let benchmarkName := path.getLastD []
  let path := path ++ [benchmarkDirName]
  if (tree.lookup path).isSome then throw (.alreadyExists path)
  let tree ← profiles.dataSource.files.foldlM (storeSamples csvOf path) tree
  let tree ← copyfile profiles.dataSource.appInfoPath (path ++ [appInfoFileName]) tree
  storeInfo format today benchmarkName path profiles.cpuInfo profiles.events tree

end Make

section Gather

def isDigit : Char → Bool := Pattern.between '0' '9'

/-- The names that `fnmatch` takes for `samples-[0-9]*.csv`. -/
def csvFileWildcard (fileName : Text) : Bool :=
  "samples-".toList.isPrefixOf fileName &&
    match fileName.drop 8 with
    | [] => false
    | digit :: rest => isDigit digit && ".csv".toList.isSuffixOf rest

/-- `samples-(\d+)\.csv` -/
def csvFilePattern : Pattern :=
  .seq (.literal "samples-".toList) (.seq (.group (.many1 isDecimal)) (.literal ".csv".toList))

def firstGroup (pattern : Pattern) (text : Text) : Option Text := do
  let found ← text.tails.findSome? pattern.first
  found.groups.head?

def orderByName (fileName : Text) : Except StoreError Int :=
  match (firstGroup csvFilePattern fileName).bind fun digits => int 10 (digits.map asciiDigit) with
  | none => .error (.noSequenceNo fileName)
  | some number => .ok number

def sortByName (fileNames : List Text) : Except StoreError (List Text) := do
  let numbered ← fileNames.mapM fun fileName => do
    let number ← orderByName fileName
    return (number, fileName)
  return (sortBy Prod.fst numbered).map Prod.snd

def gatherThread (path : Path) (sampleDirs : List Text) (tree : Tree) (threadInfo : Text) :
    Except StoreError (List SampleFile) :=
  match split ['-'] threadInfo with
  | threadId :: tlsAddr :: _ => do
      let dirPath := path ++ [threadInfo]
      if tree.isDir dirPath then
        let fileNames ← sortByName ((tree.listdir dirPath).filter csvFileWildcard)
        return fileNames.map fun fileName =>
          { threadId, tlsAddr, path := dirPath ++ [fileName], fmt := .csv }
      else return []
  | _ => .error (.missingTls sampleDirs threadInfo)

def gatherSampleFiles (path : Path) (tree : Tree) : Except StoreError (List SampleFile) := do
  let sampleDirs := sortBy id (tree.listdir path)
  let files ← sampleDirs.mapM (gatherThread path sampleDirs tree)
  return files.flatten

def directoriesIn (path : Path) (tree : Tree) : List Text :=
  (tree.listdir path).filter fun name => tree.isDir (path ++ [name])

def gather (path : Path) (tree : Tree) : Except StoreError (Option DataSource) :=
  let appInfoPath := path ++ [appInfoFileName]
  if (tree.content appInfoPath).isNone then .ok none
  else
    match directoriesIn path tree with
    | [] => .error .indexOutOfRange
    | [directory] => do
        let files ← gatherSampleFiles (path ++ [directory]) tree
        return some { appInfoPath, files }
    | _ :: _ :: _ => .ok none

structure StoredBenchmark where
  info : BenchmarkInfo
  dataSource : DataSource

variable (format : ConfigFormat)

/-- `loadBenchmarkInfo` for a path in the tree. -/
def readInfo (path : Path) (tree : Tree) : Except StoreError (Option BenchmarkInfo) :=
  match tree.content (path ++ [benchmarkFileName]) with
  | none => .ok none
  | some text =>
      ((format.read text) >>= infoOf (List.intercalate ['/'] path)).mapError .info

def gatherBenchmark (benchmarkPath : Path) (tree : Tree) :
    Except StoreError (Option StoredBenchmark) := do
  let info ← readInfo format benchmarkPath tree
  match info with
  | none => return none
  | some info =>
      let dataSource ← gather benchmarkPath tree
      return dataSource.map fun dataSource => { info, dataSource }

def gatherFrom (count : Nat) (tree : Tree) :
    List StoredBenchmark → List Path → Except StoreError (List StoredBenchmark)
  | benchmarks, [] => .ok benchmarks
  | benchmarks, path :: paths => do
      let benchmarkPath := path ++ [benchmarkDirName]
      if tree.isDir benchmarkPath then
        let benchmark ← gatherBenchmark format benchmarkPath tree
        let benchmarks := benchmarks ++ benchmark.toList
        if count ≤ benchmarks.length then return benchmarks
        else gatherFrom count tree benchmarks paths
      else gatherFrom count tree benchmarks paths

def gatherBenchmarks (count : Nat) (benchmarkPaths : List Path) (tree : Tree) :
    Except StoreError (List StoredBenchmark) :=
  gatherFrom format count tree [] benchmarkPaths

end Gather

end Xpedite.Benchmark
