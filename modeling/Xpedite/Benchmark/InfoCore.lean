import Mathlib.Logic.Function.Basic
import Xpedite.Lib.Fields
import Xpedite.Lib.OrderedDict
import Xpedite.Lib.PyText
import Xpedite.Profiler.PmuRequestCore

/-!
The info file of a benchmark: `makeBenchmarkInfo` and `loadBenchmarkInfo` of
`xpedite/benchmark/info.py`, with the part of Python's `RawConfigParser` they use.  How a config is
laid out as text is left to a `ConfigFormat`.
-/

namespace Xpedite.Benchmark

open Lib
open Profiler (Event)

abbrev Text := List Char

inductive InfoError where
  | duplicateSection (sectionName : Text)
  | invalidSection (sectionName : Text)
  | noSection (sectionName : Text)
  | noOption (option sectionName : Text)
  | unreadable
  | notANumber (text : Text)
  | missingField (index : Nat)
  deriving DecidableEq

inductive ConfigValue where
  | text (value : Text)
  | number (value : Int)
  deriving DecidableEq

def str : ConfigValue → Text
  | .text value => value
  | .number value => decimal value

def optionxform (option : Text) : Text := option.map Char.toLower

def defaultSection : Text := "DEFAULT".toList

structure RawConfigParser (Value : Type) where
  defaults : OrderedDict Text Value
  sections : OrderedDict Text (OrderedDict Text Value)
  deriving DecidableEq

namespace RawConfigParser

variable {Value Other : Type}

def new : RawConfigParser Value := { defaults := [], sections := [] }

def addSection (sectionName : Text) (config : RawConfigParser Value) :
    Except InfoError (RawConfigParser Value) :=
  if sectionName = defaultSection then .error (.invalidSection sectionName)
  else if (OrderedDict.get sectionName config.sections).isSome then
    .error (.duplicateSection sectionName)
  else .ok { config with sections := OrderedDict.update sectionName [] config.sections }

def set (sectionName option : Text) (value : Value) (config : RawConfigParser Value) :
    Except InfoError (RawConfigParser Value) :=
  if sectionName = [] ∨ sectionName = defaultSection then
    .ok { config with defaults := OrderedDict.update (optionxform option) value config.defaults }
  else
    match OrderedDict.get sectionName config.sections with
    | none => .error (.noSection sectionName)
    | some options =>
        .ok { config with
          sections := OrderedDict.update sectionName
            (OrderedDict.update (optionxform option) value options) config.sections }

def hasSection (sectionName : Text) (config : RawConfigParser Value) : Bool :=
  (OrderedDict.get sectionName config.sections).isSome

def hasOption (sectionName option : Text) (config : RawConfigParser Value) : Bool :=
  if sectionName = [] ∨ sectionName = defaultSection then
    (OrderedDict.get (optionxform option) config.defaults).isSome
  else
    match OrderedDict.get sectionName config.sections with
    | none => false
    | some options =>
        (OrderedDict.get (optionxform option) options).isSome ||
          (OrderedDict.get (optionxform option) config.defaults).isSome

/-- An option that its section does not have is looked up among the defaults. -/
def get (sectionName option : Text) (config : RawConfigParser Value) : Except InfoError Value :=
  match OrderedDict.get sectionName config.sections with
  | none =>
      if sectionName = defaultSection then
        match OrderedDict.get (optionxform option) config.defaults with
        | none => .error (.noOption option sectionName)
        | some value => .ok value
      else .error (.noSection sectionName)
  | some options =>
      match (OrderedDict.get (optionxform option) options).or
          (OrderedDict.get (optionxform option) config.defaults) with
      | none => .error (.noOption option sectionName)
      | some value => .ok value

def getint (sectionName option : Text) (config : RawConfigParser Text) : Except InfoError Int := do
  let text ← config.get sectionName option
  match int 10 text with
  | none => throw (.notANumber text)
  | some number => return number

def mapValues (f : Value → Other) (config : RawConfigParser Value) : RawConfigParser Other where
  defaults := config.defaults.map fun entry => (entry.1, f entry.2)
  sections := config.sections.map fun named =>
    (named.1, named.2.map fun entry => (entry.1, f entry.2))

end RawConfigParser

/-- How `RawConfigParser` writes a config to a file and reads one. -/
structure ConfigFormat where
  write : RawConfigParser ConfigValue → Text
  read : Text → Except InfoError (RawConfigParser Text)

/-- The stored values come back verbatim, as text. -/
def ConfigFormat.Verbatim (format : ConfigFormat) (config : RawConfigParser ConfigValue) : Prop :=
  format.read (format.write config) = .ok (config.mapValues str)

def benchmarkFileName : Text := ".benchmark".toList
def benchmarkSection : Text := "info".toList
def benchmarkNameKey : Text := "name".toList
def benchmarkLegendKey : Text := "legend".toList
def benchmarkCpuInfoSection : Text := "cpuInfo".toList
def benchmarkCpuIdKey : Text := "id".toList
def benchmarkCpuFrequencyKey : Text := "frequency".toList
def benchmarkPmcSection : Text := "pmc".toList
def benchmarkPmcCounterCount : Text := "counterCount".toList

/-- `BENCHMARK_PMC_COUNTER.format(index)` -/
def benchmarkPmcCounter (index : Nat) : Text := "counter#".toList ++ decimal index

/-- The other fields of the source's class are computed from the frequency. -/
structure CpuInfo where
  cpuId : Text
  frequency : Int
  deriving DecidableEq

def join (path name : Text) : Text :=
  if name.head? = some '/' then name
  else if path = [] ∨ path.getLast? = some '/' then path ++ name
  else path ++ '/' :: name

def boolText (flag : Bool) : Text := if flag then "True".toList else "False".toList

def eventText (event : Event) : Text :=
  List.intercalate [',']
    [event.name, event.uarchName, boolText event.user, boolText event.kernel]

def setCounter (config : RawConfigParser ConfigValue) (entry : Event × Nat) :
    Except InfoError (RawConfigParser ConfigValue) :=
  config.set benchmarkPmcSection (benchmarkPmcCounter entry.2) (.text (eventText entry.1))

/-- `today` is the text of the current date. -/
def benchmarkConfig (today benchmarkName : Text) (cpuInfo : CpuInfo) (events : Option (List Event)) :
    Except InfoError (RawConfigParser ConfigValue) := do
  let config ← RawConfigParser.new.addSection benchmarkSection
  let config ← config.set benchmarkSection benchmarkNameKey (.text benchmarkName)
  let legend := benchmarkName ++ " run at ".toList ++ today
  let config ← config.set benchmarkSection benchmarkLegendKey (.text legend)
  let config ← config.addSection benchmarkCpuInfoSection
  let config ← config.set benchmarkCpuInfoSection benchmarkCpuIdKey (.text cpuInfo.cpuId)
  let config ←
    config.set benchmarkCpuInfoSection benchmarkCpuFrequencyKey (.number cpuInfo.frequency)
  match events with
  | none | some [] => return config
  | some events => do
      let config ← config.addSection benchmarkPmcSection
      let config ←
        config.set benchmarkPmcSection benchmarkPmcCounterCount (.number events.length)
      events.zipIdx.foldlM setCounter config

abbrev Files := Text → Option Text

def makeBenchmarkInfo (format : ConfigFormat) (today benchmarkName path : Text) (cpuInfo : CpuInfo)
    (events : Option (List Event)) (files : Files) : Except InfoError Files := do
  let path := join path benchmarkFileName
  let config ← benchmarkConfig today benchmarkName cpuInfo events
  return Function.update files path (some (format.write config))

structure BenchmarkInfo where
  benchmarkName : Text
  cpuInfo : CpuInfo
  path : Text
  legend : Text
  events : Option (List Event)

def field (fields : List Text) (index : Nat) : Except InfoError Text :=
  match fields[index]? with
  | none => .error (.missingField index)
  | some text => .ok text

def bool (text : Text) : Bool := text ≠ []

def loadEvent (config : RawConfigParser Text) (index : Nat) : Except InfoError Event := do
  let eventStr ← config.get benchmarkPmcSection (benchmarkPmcCounter index)
  let eventFields := split [','] eventStr
  let name ← field eventFields 0
  let uarchName ← field eventFields 1
  let user ← field eventFields 2
  let kernel ← field eventFields 3
  return { name, uarchName, user := bool user, kernel := bool kernel }

def loadEvents (config : RawConfigParser Text) : Except InfoError (Option (List Event)) := do
  if config.hasOption benchmarkPmcSection benchmarkPmcCounterCount then
    let counterCount ← config.getint benchmarkPmcSection benchmarkPmcCounterCount
    let events ← (List.range counterCount.toNat).mapM (loadEvent config)
    return some events
  else return none

def infoOf (path : Text) (configParser : RawConfigParser Text) :
    Except InfoError (Option BenchmarkInfo) := do
  let benchmarkName ← configParser.get benchmarkSection benchmarkNameKey
  let legend ← configParser.get benchmarkSection benchmarkLegendKey
  if configParser.hasSection benchmarkCpuInfoSection then
    let cpuId ← configParser.get benchmarkCpuInfoSection benchmarkCpuIdKey
    let cpuFrequency ← configParser.get benchmarkCpuInfoSection benchmarkCpuFrequencyKey
    match int 10 cpuFrequency with
    | none => throw (.notANumber cpuFrequency)
    | some frequency =>
        let events ← loadEvents configParser
        return some { benchmarkName, cpuInfo := { cpuId, frequency }, path, legend, events }
  else return none

def loadBenchmarkInfo (format : ConfigFormat) (path : Text) (files : Files) :
    Except InfoError (Option BenchmarkInfo) := do
  let fileName := join path benchmarkFileName
  match files fileName with
  | none => return none
  | some text => do
      let configParser ← format.read text
      infoOf path configParser

end Xpedite.Benchmark
