import Mathlib.Data.List.Sort
import Mathlib.Data.Rat.Floor

/-!
Latency histograms (`xpedite/report/histogram.py`).  Values are exact here; what numpy computes
from them and how a floating point number is written is left to `Figures`.
-/

namespace Xpedite.Report

inductive Failure where
  | invariantViolation
  | countersNotAvailable
  | attributeError
  | indexError
  | valueError
  deriving DecidableEq, Repr

structure Figures where
  mean : List ℚ → ℚ
  median : List ℚ → ℚ
  percentile : List ℚ → Nat → ℚ
  fixedPoint : ℚ → String
  threeDigits : ℚ → String

structure Bars where
  visible : Bool
  barWidth : ℚ
  deriving DecidableEq, Repr

structure Series where
  label : String
  data : List (ℚ × Nat)
  shadowSize : Nat
  bars : Bars
  deriving DecidableEq, Repr

def Series.counts (series : Series) : List Nat := series.data.map Prod.snd

structure Options where
  ticks : List (Nat × String)
  stack : Bool
  deriving DecidableEq, Repr

structure Histogram where
  title : String
  description : String
  data : List Series
  options : Options
  deriving DecidableEq, Repr

def formatLegend (figures : Figures) (legendPrefix : String)
    (minimum maximum mean median percentile95 percentile99 : ℚ) : String :=
  legendPrefix ++ (" (min. = " ++ figures.fixedPoint minimum ++ "us, max. = " ++
    figures.fixedPoint maximum ++ "us, mean = " ++ figures.fixedPoint mean ++ "us, median = " ++
    figures.fixedPoint median ++ "us, 95% = " ++ figures.fixedPoint percentile95 ++ "us, 99% = " ++
    figures.fixedPoint percentile99 ++ "us)")

def totalWidth : ℚ := 4 / 5

def buildSeries (ticks : List String) (stack : Bool) (width : ℚ) (entry : (String × List Nat) × Nat) :
    Except Failure Series :=
  let ((name, serie), index) := entry
  let offset (xval : Nat) : ℚ :=
    if stack then xval else xval - totalWidth / 2 + (index + 1) * width
  if ticks.length < serie.length then .error .valueError
  else .ok {
    label := name
    data := ((List.range serie.length).map offset).zip serie
    shadowSize := 4
    bars := ⟨true, if stack then totalWidth else width * (4 / 5)⟩ }

def buildHistograms (ticks : List String) (series : List (String × List Nat)) (stack : Bool) :
    Except Failure (Options × List Series) := do
  let width := totalWidth / (((series.length + 1 : ℚ) / 2) * 2)
  let data ← series.zipIdx.mapM (buildSeries ticks stack width)
  return (⟨(List.range ticks.length).zip ticks, stack⟩, data)

/-- The loop that makes the buckets, with a bound on its rounds. -/
def bucketsFrom (bucketSize upperBound : ℚ) : Nat → ℚ → List ℚ
  | 0, _ => []
  | rounds + 1, bucket =>
      if bucket ≤ upperBound then
        bucket :: bucketsFrom bucketSize upperBound rounds (bucket + bucketSize)
      else []

def buildBuckets (series : List ℚ) (bucketCount : Nat) : Option (List ℚ) :=
  let series := series.insertionSort (· ≤ ·)
  let confidence := series.take (95 * series.length / 100)
  if confidence.length ≤ 0 then none
  else
    let mean := confidence.sum / confidence.length
    let lowerBound := mean / 2
    let upperBound := mean * 2
    let bucketSize := (upperBound - lowerBound) / bucketCount
    some (if bucketSize ≠ 0 then bucketsFrom bucketSize upperBound (bucketCount + 1) lowerBound
      else [])

def bisectLeft (buckets : List ℚ) (value : ℚ) : Nat :=
  (buckets.takeWhile fun bucket => bucket < value).length

def addValue (buckets : List ℚ) (state : List Nat × Nat) (value : ℚ) : List Nat × Nat :=
  let (bucketValues, conflatedCountersCount) := state
  let index := bisectLeft buckets value
  if index < bucketValues.length then (bucketValues.modify index (· + 1), conflatedCountersCount)
  else (bucketValues.modify (bucketValues.length - 1) (· + 1), conflatedCountersCount + 1)

def buildDistribution (buckets valueSeries : List ℚ) : List Nat × Nat :=
  valueSeries.foldl (addValue buckets) (List.replicate buckets.length 0, 0)

def formatBuckets (figures : Figures) (buckets : List ℚ) : List String :=
  buckets.zipIdx.map fun (bucket, i) =>
    if i < buckets.length - 1 then figures.threeDigits bucket else ">>" ++ figures.threeDigits bucket

end Xpedite.Report
