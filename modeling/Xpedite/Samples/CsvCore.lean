import Xpedite.Lib.OStream
import Xpedite.Lib.PyText
import Xpedite.Samples.SampleCore

/-!
The two ways of the profiler to a counter: samples that are written as text by
`SamplesLoader::streamAsCsv` and read line by line, and the samples themselves by way
of the bindings.  The reading side is `Extractor` of `extractor.py`, the loop of
`Collector.loadCounters` and `Counter` of `types/__init__.py`.
-/

namespace Xpedite.Samples

open Lib

def dataStr (data : UInt64 × UInt64) : List Char :=
  (((((OStream.new.hex.number data.2.toNat).setw 16).setfill '0').right.number
    data.1.toNat).dec).text

def csvHeader (pmcCount : Nat) : OStream :=
  ((List.range pmcCount).foldl
    (fun stream index => (stream.put ",Pmc-".toList).number (index + 1))
    (OStream.new.put "Tsc,ReturnSite,Data".toList)).endl

def csvData (stream : OStream) : Option (UInt64 × UInt64) → OStream
  | some data =>
      (((((stream.hex.put [',']).number data.2.toNat).setw 16).setfill '0').right.number
        data.1.toNat).dec
  | none => stream.put [',']

def csvRecord (stream : OStream) (reading : Reading) : OStream :=
  let stream :=
    ((stream.hex.number reading.tsc.toNat).dec.put [',']).pointer reading.returnSite.toNat
  let stream := csvData stream reading.data
  let stream := (reading.pmc.getD []).foldl
    (fun stream value => (stream.put [',']).number value.toNat) stream
  stream.endl

def streamAsCsv (pmcCount : Nat) (readings : List Reading) : List Char :=
  (readings.foldl csvRecord (csvHeader pmcCount)).text

def lines : List Char → List (List Char)
  | [] => []
  | char :: rest =>
      if char = '\n' then [char] :: lines rest
      else
        match lines rest with
        | [] => [[char]]
        | line :: later => (char :: line) :: later

structure Counter (π : Type) where
  threadId : List Char
  probe : π
  data : List Char
  tsc : Int
  pmcs : List Int
  deriving DecidableEq

inductive RecordError where
  | fields (count : Nat)
  | index
  | value
  deriving DecidableEq

section Extractor

variable {π φ loader : Type}

/-- The counter filter and the loader an extractor works with. -/
structure Collaborators (π φ loader : Type) where
  canLoad : φ → Counter π → Bool × φ
  loadCounter : loader → Counter π → loader

structure Extractor (φ loader : Type) where
  orphanedSamplesCount : Nat
  counterFilter : φ
  loader : loader

variable (collaborators : Collaborators π φ loader) (threadId : List Char)
  (probes : List Char → Option π)

def Counter.new (threadId : List Char) (probe : π) (data : List Char) (tsc : Int) : Counter π :=
  ⟨threadId, probe, strip data, tsc, []⟩

def Counter.addPmc (counter : Counter π) (pmc : Int) : Counter π :=
  { counter with pmcs := counter.pmcs ++ [pmc] }

def Extractor.deliver (extractor : Extractor φ loader) (counter : Counter π) : Extractor φ loader :=
  let (canLoad, counterFilter) := collaborators.canLoad extractor.counterFilter counter
  { extractor with
    counterFilter := counterFilter
    loader :=
      if canLoad then collaborators.loadCounter extractor.loader counter else extractor.loader }

def Extractor.orphan (extractor : Extractor φ loader) : Extractor φ loader :=
  { extractor with orphanedSamplesCount := extractor.orphanedSamplesCount + 1 }

def hexText (number : Nat) : List Char := '0' :: 'x' :: Nat.toDigits 16 number

def loadSample (extractor : Extractor φ loader) (sample : Reading) :
    Option (Counter π) × Extractor φ loader :=
  match probes (hexText sample.returnSite.toNat) with
  | none => (none, extractor.orphan)
  | some probe =>
      let data := match sample.data with
        | some data => dataStr data
        | none => []
      let counter := Counter.new threadId probe data sample.tsc.toNat
      let counter := (sample.pmc.getD []).foldl
        (fun counter value => counter.addPmc value.toNat) counter
      (some counter, extractor.deliver collaborators counter)

def addPmcs (counter : Counter π) : List (List Char) → Except RecordError (Counter π)
  | [] => .ok counter
  | field :: fields =>
      match int 10 field with
      | none => .error .value
      | some pmc => addPmcs (counter.addPmc pmc) fields

def minFieldCount : Nat := 2

def indexTsc : Nat := 0

def indexAddr : Nat := 1

def indexData : Nat := 2

def loadCounter (extractor : Extractor φ loader) (record : List Char) :
    Except RecordError (Option (Counter π) × Extractor φ loader) :=
  let fields := record.splitOn ','
  if fields.length < minFieldCount then .error (.fields fields.length)
  else
    match probes (fields.getD indexAddr []) with
    | none => .ok (none, extractor.orphan)
    | some probe =>
        match fields[indexData]? with
        | none => .error .index
        | some data =>
            match int 16 (fields.getD indexTsc []) with
            | none => .error .value
            | some tsc =>
                match addPmcs (Counter.new threadId probe data tsc)
                  (fields.drop (minFieldCount + 1)) with
                | .error error => .error error
                | .ok counter => .ok (some counter, extractor.deliver collaborators counter)

def loadSamples (extractor : Extractor φ loader) :
    List Reading → List (Option (Counter π)) × Extractor φ loader
  | [] => ([], extractor)
  | sample :: samples =>
      let (counter, extractor) := loadSample collaborators threadId probes extractor sample
      let (counters, extractor) := loadSamples extractor samples
      (counter :: counters, extractor)

/-- The loop of `Collector.loadCounters` behind the first record. -/
def loadRecords (extractor : Extractor φ loader) : List (List Char) →
    Except RecordError (List (Option (Counter π)) × Extractor φ loader)
  | [] => .ok ([], extractor)
  | record :: records =>
      match loadCounter collaborators threadId probes extractor record with
      | .error error => .error error
      | .ok (counter, extractor) =>
          match loadRecords extractor records with
          | .error error => .error error
          | .ok (counters, extractor) => .ok (counter :: counters, extractor)

end Extractor

end Xpedite.Samples
