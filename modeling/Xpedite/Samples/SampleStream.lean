import Mathlib.Data.Nat.Bitwise
import Xpedite.Samples.SampleCore

/-!
Each constructor writes one string of bytes, `Sample.bytes`, and where these bytes
stand the accessors give the sample back.
-/

namespace Xpedite.Samples

open Lib

def Sample.kind (sample : Sample) : Nat := sample.data.isSome.toNat + 2 * sample.pmc.isSome.toNat

def flagged (kind : Nat) (tsc : UInt64) : UInt64 := tsc ||| UInt64.ofNat (2 ^ 62 * kind)

def wordBytes (word : UInt64) : List UInt8 := bytesOf 8 word.toNat

def dataBytes : Option (BitVec 128) → List UInt8
  | none => []
  | some data => wordBytes (lowWord data) ++ wordBytes (highWord data)

def pmcBytes : Option Counters → List UInt8
  | none => []
  | some values => wordBytes (UInt64.ofNat values.val.length) ++ values.val.flatMap wordBytes

def Sample.bytes (sample : Sample) : List UInt8 :=
  wordBytes (flagged sample.kind sample.tsc.val) ++ wordBytes sample.returnSite ++
    dataBytes sample.data ++ pmcBytes sample.pmc

@[simp] theorem length_wordBytes (word : UInt64) : (wordBytes word).length = 8 := length_bytesOf 8 _

theorem Sample.kind_lt (sample : Sample) : sample.kind < 4 := by
  have first := sample.data.isSome.toNat_le
  have second := sample.pmc.isSome.toNat_le
  rw [Sample.kind]
  omega

theorem and_flag_ne_zero {word flag : UInt64} {bit : Nat} (single : flag.toNat = 2 ^ bit) :
    (word &&& flag != 0) = word.toNat.testBit bit := by
  have value : (word &&& flag).toNat = (word.toNat.testBit bit).toNat * 2 ^ bit := by
    rw [UInt64.toNat_and, single, Nat.and_two_pow]
  have positive : 0 < 2 ^ bit := Nat.two_pow_pos bit
  cases set : word.toNat.testBit bit with
  | false =>
      rw [set, Bool.toNat_false, Nat.zero_mul] at value
      have zero : word &&& flag = 0 := UInt64.toNat_inj.mp value
      rw [zero, bne_self_eq_false]
  | true =>
      rw [set, Bool.toNat_true, Nat.one_mul] at value
      rw [bne_iff_ne]
      intro zero
      rw [zero, UInt64.toNat_zero] at value
      omega

section Flags

variable {kind : Nat} (small : kind < 4) (tsc : Tsc)

include small

theorem toNat_flagged : (flagged kind tsc.val).toNat = 2 ^ 62 * kind + tsc.val.toNat := by
  have bound : 2 ^ 62 * kind < 2 ^ 64 := by omega
  rw [flagged, UInt64.toNat_or, UInt64.toNat_ofNat', Nat.mod_eq_of_lt bound, Nat.or_comm,
    Nat.two_pow_add_eq_or_of_lt tsc.property]

theorem flagged_and_tscMask : flagged kind tsc.val &&& tscMask = tsc.val := by
  have mask : tscMask.toNat = 2 ^ 62 - 1 := by decide
  apply UInt64.toNat_inj.mp
  rw [UInt64.toNat_and, mask, Nat.and_two_pow_sub_one_eq_mod, toNat_flagged small,
    Nat.mul_add_mod, Nat.mod_eq_of_lt tsc.property]

theorem flagged_and_flagData :
    (flagged kind tsc.val &&& flagData != 0) = decide (kind % 2 = 1) := by
  have bound := tsc.property
  have quotient : (2 ^ 62 * kind + tsc.val.toNat) / 2 ^ 62 = kind := by omega
  rw [and_flag_ne_zero (show flagData.toNat = 2 ^ 62 by decide), toNat_flagged small,
    Nat.testBit_eq_decide_div_mod_eq, quotient]

theorem flagged_and_flagPmc :
    (flagged kind tsc.val &&& flagPmc != 0) = decide (kind / 2 = 1) := by
  have bound := tsc.property
  have quotient : (2 ^ 62 * kind + tsc.val.toNat) / 2 ^ 63 % 2 = kind / 2 := by omega
  rw [and_flag_ne_zero (show flagPmc.toNat = 2 ^ 63 by decide), toNat_flagged small,
    Nat.testBit_eq_decide_div_mod_eq, quotient]

end Flags

theorem Sample.kind_hasData (sample : Sample) :
    decide (sample.kind % 2 = 1) = sample.data.isSome := by
  unfold Sample.kind
  cases sample.data.isSome with
  | false => rw [Bool.toNat_false]; exact decide_eq_false (by omega)
  | true => rw [Bool.toNat_true]; exact decide_eq_true (by omega)

theorem Sample.kind_hasPmc (sample : Sample) :
    decide (sample.kind / 2 = 1) = sample.pmc.isSome := by
  have first := sample.data.isSome.toNat_le
  unfold Sample.kind
  cases sample.pmc.isSome with
  | false => rw [Bool.toNat_false]; exact decide_eq_false (by omega)
  | true => rw [Bool.toNat_true]; exact decide_eq_true (by omega)

theorem bytesOf_data (data : BitVec 128) :
    bytesOf 16 data.toNat = wordBytes (lowWord data) ++ wordBytes (highWord data) := by
  rw [wordBytes, wordBytes, lowWord, highWord, UInt64.toNat_ofNat', UInt64.toNat_ofNat']
  exact (bytesOf_add 8 8 data.toNat).trans
    (congrArg₂ (· ++ ·) (bytesOf_mod 8 _).symm (bytesOf_mod 8 _).symm)

theorem readPmc_eq_write (memory : Memory) (address : Nat) (values : List UInt64) :
    readPmc memory address values = memory.write address (values.flatMap wordBytes) := by
  induction values generalizing memory address with
  | nil =>
      rw [readPmc, List.flatMap_nil, Memory.write_nil]
  | cons value values ih =>
      rw [readPmc, ih, List.flatMap_cons, Memory.write_append, length_wordBytes]
      rfl

theorem construct_eq_write (memory : Memory) (this : Nat) (returnSite tsc : UInt64) :
    construct memory this returnSite tsc =
      memory.write this (wordBytes tsc ++ wordBytes returnSite) := by
  rw [Memory.write_append, length_wordBytes]
  rfl

theorem flagged_zero (tsc : UInt64) : flagged 0 tsc = tsc := UInt64.or_zero

theorem flagged_one (tsc : UInt64) : flagged 1 tsc = tsc ||| flagData := by
  have flag : UInt64.ofNat (2 ^ 62 * 1) = flagData := by decide
  rw [flagged, flag]

theorem flagged_two (tsc : UInt64) : flagged 2 tsc = tsc ||| flagPmc := by
  have flag : UInt64.ofNat (2 ^ 62 * 2) = flagPmc := by decide
  rw [flagged, flag]

theorem flagged_three (tsc : UInt64) : flagged 3 tsc = tsc ||| flagPmc ||| flagData := by
  have flag : UInt64.ofNat (2 ^ 62 * 3) = flagPmc ||| flagData := by decide
  rw [flagged, flag, UInt64.or_assoc]

theorem constructWithData_eq_write (memory : Memory) (this : Nat) (returnSite tsc : UInt64)
    (data : BitVec 128) :
    constructWithData memory this returnSite tsc data =
      memory.write this (wordBytes (tsc ||| flagData) ++ wordBytes returnSite ++
        dataBytes (some data)) := by
  rw [constructWithData, construct_eq_write, dataBytes, ← bytesOf_data,
    Memory.write_append _ _ (_ ++ _), List.length_append, length_wordBytes, length_wordBytes,
    Memory.store]

theorem constructWithPmc_eq_write (memory : Memory) (this : Nat) (returnSite tsc : UInt64)
    (values : Counters) :
    constructWithPmc memory this returnSite tsc values.val =
      memory.write this (wordBytes (tsc ||| flagPmc) ++ wordBytes returnSite ++
        pmcBytes (some values)) := by
  rw [constructWithPmc, construct_eq_write, readPmc_eq_write, pmcBytes, ← List.append_assoc,
    Memory.write_append _ _ (_ ++ _ ++ _), Memory.write_append _ _ (_ ++ _)]
  simp only [List.length_append, length_wordBytes]
  rfl

theorem constructWithDataAndPmc_eq_write (memory : Memory) (this : Nat) (returnSite tsc : UInt64)
    (data : BitVec 128) (values : Counters) :
    constructWithDataAndPmc memory this returnSite tsc data values.val =
      memory.write this (wordBytes (tsc ||| flagPmc ||| flagData) ++ wordBytes returnSite ++
        dataBytes (some data) ++ pmcBytes (some values)) := by
  rw [constructWithDataAndPmc, constructWithData_eq_write, readPmc_eq_write, pmcBytes,
    ← List.append_assoc, Memory.write_append _ _ (_ ++ _ ++ _ ++ _),
    Memory.write_append _ _ (_ ++ _ ++ _)]
  simp only [List.length_append, length_wordBytes, dataBytes]
  rfl

theorem Sample.place_eq_write (sample : Sample) (memory : Memory) (this : Nat) :
    sample.place memory this = memory.write this sample.bytes := by
  obtain ⟨returnSite, tsc, data, pmc⟩ := sample
  cases data with
  | none =>
      cases pmc with
      | none =>
          simp only [Sample.place, Sample.bytes, Sample.kind, Option.isSome_none, Bool.toNat_false,
            Nat.mul_zero, Nat.add_zero, flagged_zero, dataBytes, pmcBytes, List.append_nil,
            construct_eq_write]
      | some values =>
          simp only [Sample.place, Sample.bytes, Sample.kind, Option.isSome_none, Option.isSome_some,
            Bool.toNat_false, Bool.toNat_true, Nat.zero_add, Nat.mul_one, flagged_two, dataBytes,
            List.append_nil, constructWithPmc_eq_write]
  | some data =>
      cases pmc with
      | none =>
          simp only [Sample.place, Sample.bytes, Sample.kind, Option.isSome_none, Option.isSome_some,
            Bool.toNat_false, Bool.toNat_true, Nat.mul_zero, Nat.add_zero, flagged_one, pmcBytes,
            List.append_nil, constructWithData_eq_write]
      | some values =>
          simp only [Sample.place, Sample.bytes, Sample.kind, Option.isSome_some, Bool.toNat_true,
            Nat.mul_one, Nat.reduceAdd, flagged_three, constructWithDataAndPmc_eq_write]

theorem length_dataBytes (data : Option (BitVec 128)) :
    (dataBytes data).length = 8 * (2 * data.isSome.toNat) := by
  cases data with
  | none => rfl
  | some data => simp [dataBytes]

theorem length_flatMap_wordBytes (words : List UInt64) :
    (words.flatMap wordBytes).length = 8 * words.length := by
  induction words with
  | nil => rfl
  | cons word words ih =>
      rw [List.flatMap_cons, List.length_append, length_wordBytes, ih, List.length_cons]
      omega

theorem map_load64_of_holds {memory : Memory} {address : Nat} {values : List UInt64}
    (holds : memory.Holds address (values.flatMap wordBytes)) :
    ((List.range values.length).map fun index => memory.load64 (address + 8 * index)) = values := by
  induction values generalizing address with
  | nil => rfl
  | cons value values ih =>
      rw [List.flatMap_cons, Memory.holds_append, length_wordBytes] at holds
      have first : memory.load64 address = value := Memory.Holds.load64 holds.1
      have rest := ih holds.2
      rw [List.length_cons, List.range_succ_eq_map, List.map_cons, List.map_map, Nat.mul_zero,
        Nat.add_zero, first, List.cons_inj_right]
      refine Eq.trans (List.map_congr_left ?_) rest
      intro index _
      simp only [Function.comp_apply, Nat.succ_eq_add_one]
      congr 1
      omega

structure Stands (memory : Memory) (this : Nat) (sample : Sample) : Prop where
  tscWord : tscWord memory this = flagged sample.kind sample.tsc.val
  returnSite : returnSite memory this = sample.returnSite
  data : memory.Holds (this + 16) (dataBytes sample.data)
  pmc : memory.Holds (this + 16 + (dataBytes sample.data).length) (pmcBytes sample.pmc)

theorem stands_of_holds {memory : Memory} {this : Nat} {sample : Sample}
    (holds : memory.Holds this sample.bytes) : Stands memory this sample := by
  rw [Sample.bytes, Memory.holds_append, Memory.holds_append, Memory.holds_append] at holds
  simp only [List.length_append, length_wordBytes, ← Nat.add_assoc] at holds
  obtain ⟨⟨⟨first, second⟩, data⟩, pmc⟩ := holds
  exact ⟨Memory.Holds.load64 first, Memory.Holds.load64 second, data, pmc⟩

namespace Stands

variable {memory : Memory} {this : Nat} {sample : Sample} (stands : Stands memory this sample)

include stands

theorem tsc_eq : tsc memory this = sample.tsc.val := by
  rw [tsc, stands.tscWord, flagged_and_tscMask sample.kind_lt]

theorem hasData_eq : hasData memory this = sample.data.isSome := by
  rw [hasData, stands.tscWord, flagged_and_flagData sample.kind_lt, sample.kind_hasData]

theorem hasPmc_eq : hasPmc memory this = sample.pmc.isSome := by
  rw [hasPmc, stands.tscWord, flagged_and_flagPmc sample.kind_lt, sample.kind_hasPmc]

theorem data_eq {data : BitVec 128} (stored : sample.data = some data) :
    Samples.data memory this = (lowWord data, highWord data) := by
  have holds := stands.data
  rw [stored, dataBytes, Memory.holds_append, length_wordBytes] at holds
  rw [Samples.data, dataWord, dataWord]
  exact Prod.ext (Memory.Holds.load64 holds.1) (Memory.Holds.load64 holds.2)

theorem pmcCount_eq {values : Counters} (stored : sample.pmc = some values) :
    pmcCount memory this = values.val.length := by
  have holds := stands.pmc
  have few := values.property
  rw [stored, pmcBytes, Memory.holds_append, length_dataBytes] at holds
  have count : dataWord memory this (2 * sample.data.isSome.toNat) =
      UInt64.ofNat values.val.length := Memory.Holds.load64 holds.1
  have mask : (0xF : UInt64).toNat = 2 ^ 4 - 1 := by decide
  rw [pmcCount, stands.hasData_eq, count, UInt64.toNat_and, mask, Nat.and_two_pow_sub_one_eq_mod,
    UInt64.toNat_ofNat']
  omega

theorem pmc_eq {values : Counters} (stored : sample.pmc = some values) :
    Samples.pmc memory this = values.val := by
  have holds := stands.pmc
  rw [stored, pmcBytes, Memory.holds_append, length_dataBytes, length_wordBytes] at holds
  have words := map_load64_of_holds holds.2
  rw [Samples.pmc, stands.pmcCount_eq stored, stands.hasData_eq]
  refine Eq.trans (List.map_congr_left ?_) words
  intro index _
  rw [dataWord]
  congr 1
  omega

theorem reading_eq : reading memory this = sample.reading := by
  have data : (if sample.data.isSome then some (Samples.data memory this) else none) =
      sample.data.map fun data => (lowWord data, highWord data) := by
    cases stored : sample.data with
    | none => rfl
    | some data => rw [stands.data_eq stored]; rfl
  have pmc : (if sample.pmc.isSome then some (Samples.pmc memory this) else none) =
      sample.pmc.map Subtype.val := by
    cases stored : sample.pmc with
    | none => rfl
    | some values => rw [stands.pmc_eq stored]; rfl
  rw [reading, stands.hasData_eq, stands.hasPmc_eq, data, pmc, stands.tsc_eq, stands.returnSite,
    Sample.reading]

theorem size_eq : size memory this = sample.bytes.length := by
  have data := length_dataBytes sample.data
  rw [size, stands.hasData_eq, stands.hasPmc_eq, Sample.bytes]
  simp only [List.length_append, length_wordBytes, data]
  cases stored : sample.pmc with
  | none =>
      simp only [Option.isSome_none, Bool.toNat_false, pmcBytes, List.length_nil]
      omega
  | some values =>
      simp only [stands.pmcCount_eq stored, Option.isSome_some, Bool.toNat_true, pmcBytes,
        List.length_append, length_wordBytes, length_flatMap_wordBytes]
      omega

end Stands

/-- The size of a sample is told by bytes within it, the last of them the count of its counters. -/
theorem lt_size_or_size_congr {memory other : Memory} {this room : Nat}
    (same : ∀ place, this ≤ place → place < this + room → memory place = other place) :
    room < size memory this ∨ size memory this = size other this := by
  have whole : size memory this = 16 + 8 * ((hasData memory this).toNat * 2 +
      (hasPmc memory this).toNat * (1 + pmcCount memory this)) := rfl
  by_cases short : room < 16
  · left
    omega
  · have word : tscWord memory this = tscWord other this := by
      have bytes : memory.read this 8 = other.read this 8 :=
        Memory.read_congr fun place start stop => same place start (by omega)
      exact congrArg (fun bytes => UInt64.ofNat (numberOf bytes)) bytes
    have data : hasData memory this = hasData other this := by rw [hasData, hasData, word]
    have counted : hasPmc memory this = hasPmc other this := by rw [hasPmc, hasPmc, word]
    cases flag : hasPmc memory this with
    | false =>
        right
        rw [size, size, ← data, ← counted, flag, Bool.toNat_false, Nat.zero_mul, Nat.zero_mul]
    | true =>
        rw [flag, Bool.toNat_true, Nat.one_mul] at whole
        by_cases cut : room < 24 + 16 * (hasData memory this).toNat
        · left
          omega
        · right
          have count : dataWord memory this (2 * (hasData memory this).toNat) =
              dataWord other this (2 * (hasData memory this).toNat) := by
            rw [dataWord, dataWord, Memory.load64, Memory.load64, Memory.load, Memory.load]
            rw [Memory.read_congr fun place start stop => same place (by omega) (by omega)]
          rw [size, size, pmcCount, pmcCount, ← data, ← counted, count]

/-- Where the bytes of a sample are cut off, its size still leads beyond the cut. -/
theorem lt_size_of_cut {memory : Memory} {this room : Nat} {sample : Sample}
    (holds : memory.Holds this (sample.bytes.take room)) (cut : room < sample.bytes.length) :
    room < size memory this := by
  have written := memory.holds_write this sample.bytes
  have length : (sample.bytes.take room).length = room := List.length_take_of_le (Nat.le_of_lt cut)
  have same : ∀ place, this ≤ place → place < this + room →
      memory place = memory.write this sample.bytes place :=
    fun place start stop => holds.agree (written.take room) start (by omega)
  have whole := (stands_of_holds written).size_eq
  rcases lt_size_or_size_congr same with beyond | equal
  · exact beyond
  · omega

def streamBytes (samples : List Sample) : List UInt8 := samples.flatMap Sample.bytes

theorem Sample.length_bytes_pos (sample : Sample) : 0 < sample.bytes.length := by
  simp only [Sample.bytes, List.length_append, length_wordBytes]
  omega

theorem record_eq (memory : Memory) (this : Nat) (sample : Sample) :
    record (memory, this) sample =
      (memory.write this sample.bytes, this + sample.bytes.length) := by
  have stands := stands_of_holds (memory.holds_write this sample.bytes)
  rw [record, sample.place_eq_write, next, stands.size_eq]

theorem layOut_eq (memory : Memory) (start : Nat) (samples : List Sample) :
    layOut memory start samples =
      (memory.write start (streamBytes samples), start + (streamBytes samples).length) := by
  rw [layOut]
  induction samples generalizing memory start with
  | nil => rw [List.foldl_nil, streamBytes, List.flatMap_nil, Memory.write_nil, List.length_nil,
      Nat.add_zero]
  | cons sample samples ih =>
      rw [List.foldl_cons, record_eq, ih, streamBytes, streamBytes, List.flatMap_cons,
        Memory.write_append, List.length_append, Nat.add_assoc]

theorem walkFrom_of_holds {memory : Memory} {rounds start : Nat} {samples : List Sample}
    (holds : memory.Holds start (streamBytes samples))
    (enough : (streamBytes samples).length ≤ rounds) :
    walkFrom memory rounds start (start + (streamBytes samples).length) =
      samples.map Sample.reading := by
  induction samples generalizing rounds start with
  | nil =>
      cases rounds with
      | zero => rfl
      | succ rounds => rw [walkFrom, if_neg (by simp [streamBytes]), List.map_nil]
  | cons sample samples ih =>
      have positive := sample.length_bytes_pos
      have cons : streamBytes (sample :: samples) = sample.bytes ++ streamBytes samples :=
        List.flatMap_cons
      rw [cons] at holds enough ⊢
      rw [Memory.holds_append] at holds
      rw [List.length_append] at enough ⊢
      have stands := stands_of_holds holds.1
      cases rounds with
      | zero => omega
      | succ rounds =>
          have rest := @ih rounds _ holds.2 (by omega)
          rw [walkFrom, if_pos (by omega), next, stands.reading_eq, stands.size_eq, List.map_cons,
            ← Nat.add_assoc, rest]

theorem walk_of_holds {memory : Memory} {start : Nat} {samples : List Sample}
    (holds : memory.Holds start (streamBytes samples)) :
    walk memory start (start + (streamBytes samples).length) = samples.map Sample.reading :=
  walkFrom_of_holds holds (by omega)

theorem walk_layOut (memory : Memory) (start : Nat) (samples : List Sample) :
    walk (layOut memory start samples).1 start (layOut memory start samples).2 =
      samples.map Sample.reading := by
  rw [layOut_eq]
  exact walk_of_holds (memory.holds_write start (streamBytes samples))

end Xpedite.Samples
