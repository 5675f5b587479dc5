import Xpedite.Lib.Digits
import Xpedite.Samples.CsvCore

/-!
A line of the text form is read back as the counter that its sample gives.
-/

namespace Xpedite.Samples

open Lib

def dataText : Option (UInt64 × UInt64) → List Char
  | some data => dataStr data
  | none => []

def pmcText (values : List UInt64) : List Char :=
  values.flatMap fun value => ',' :: Nat.toDigits 10 value.toNat

def csvLine (reading : Reading) : List Char :=
  Nat.toDigits 16 reading.tsc.toNat ++ ',' :: (hexText reading.returnSite.toNat ++
    ',' :: (dataText reading.data ++ pmcText (reading.pmc.getD []) ++ ['\n']))

theorem dataStr_eq (data : UInt64 × UInt64) :
    dataStr data =
      Nat.toDigits 16 data.2.toNat ++ (Nat.toDigits 16 data.1.toNat).leftpad 16 '0' := by
  simp [dataStr, OStream.new, OStream.hex, OStream.number, OStream.put, OStream.setw,
    OStream.setfill, OStream.right, OStream.dec, OStream.base, List.leftpad]

theorem csvData_eq (text : List Char) (fill : Char) (data : Option (UInt64 × UInt64)) :
    ∃ filled, csvData ⟨text, false, 0, fill⟩ data =
      ⟨text ++ ',' :: dataText data, false, 0, filled⟩ := by
  cases data with
  | none => exact ⟨fill, by simp [csvData, OStream.put, dataText, List.leftpad]⟩
  | some data =>
      refine ⟨'0', ?_⟩
      simp [csvData, dataText, dataStr_eq, OStream.hex, OStream.number, OStream.put, OStream.setw,
        OStream.setfill, OStream.right, OStream.dec, OStream.base, List.leftpad]

theorem csvPmcs_eq (text : List Char) (fill : Char) (values : List UInt64) :
    values.foldl (fun stream value => (OStream.put stream [',']).number value.toNat)
        ⟨text, false, 0, fill⟩ =
      ⟨text ++ pmcText values, false, 0, fill⟩ := by
  induction values generalizing text with
  | nil => simp [pmcText]
  | cons value values ih =>
      have step : (OStream.put ⟨text, false, 0, fill⟩ [',']).number value.toNat =
          ⟨text ++ ',' :: Nat.toDigits 10 value.toNat, false, 0, fill⟩ := by
        simp [OStream.put, OStream.number, OStream.base, List.leftpad]
      rw [List.foldl_cons, step, ih]
      simp [pmcText]

theorem csvRecord_eq (text : List Char) (fill : Char) {reading : Reading}
    (nonNull : reading.returnSite ≠ 0) :
    ∃ filled, csvRecord ⟨text, false, 0, fill⟩ reading =
      ⟨text ++ csvLine reading, false, 0, filled⟩ := by
  have address : reading.returnSite.toNat ≠ 0 := fun zero => nonNull (UInt64.toNat_inj.mp zero)
  have front : ((OStream.number (OStream.hex ⟨text, false, 0, fill⟩) reading.tsc.toNat).dec.put
      [',']).pointer reading.returnSite.toNat =
        ⟨text ++ (Nat.toDigits 16 reading.tsc.toNat ++ ',' :: hexText reading.returnSite.toNat),
          false, 0, fill⟩ := by
    simp [OStream.hex, OStream.number, OStream.put, OStream.dec, OStream.base, OStream.pointer,
      List.leftpad, hexText, address]
  obtain ⟨filled, middle⟩ := csvData_eq
    (text ++ (Nat.toDigits 16 reading.tsc.toNat ++ ',' :: hexText reading.returnSite.toNat)) fill
    reading.data
  refine ⟨filled, ?_⟩
  simp only [csvRecord, front, middle, csvPmcs_eq, OStream.endl, csvLine, List.append_assoc,
    List.cons_append]

theorem foldl_csvRecord (text : List Char) (fill : Char) {readings : List Reading}
    (nonNull : ∀ reading ∈ readings, reading.returnSite ≠ 0) :
    (readings.foldl csvRecord ⟨text, false, 0, fill⟩).text = text ++ readings.flatMap csvLine := by
  induction readings generalizing text fill with
  | nil => simp
  | cons reading readings ih =>
      obtain ⟨filled, step⟩ := csvRecord_eq text fill (nonNull reading List.mem_cons_self)
      rw [List.foldl_cons, step, ih _ _ fun other member =>
        nonNull other (List.mem_cons_of_mem _ member)]
      simp

theorem toDigits_digits {base : Nat} (valid : 1 < base) (small : base ≤ 16) (number : Nat) :
    ∀ char ∈ Nat.toDigits base number, isDigitOf base char :=
  fun _ member => isDigitOf_of_mem_toDigits valid small member

theorem dataText_digits (data : Option (UInt64 × UInt64)) :
    ∀ char ∈ dataText data, isDigitOf 16 char := by
  intro char member
  cases data with
  | none => cases member
  | some data =>
      rw [dataText, dataStr_eq, List.leftpad, List.mem_append, List.mem_append,
        List.mem_replicate] at member
      rcases member with high | ⟨-, rfl⟩ | low
      · exact toDigits_digits (by decide) (by decide) _ char high
      · decide
      · exact toDigits_digits (by decide) (by decide) _ char low

theorem hexText_clean {char : Char} (other : isDigitOf 16 char = false) (notMark : char ≠ 'x')
    (number : Nat) : char ∉ hexText number := by
  have zero : char ≠ '0' := by
    rintro rfl
    exact absurd other (by decide)
  have digits := not_mem_of_all (toDigits_digits (by decide) (by decide) number) other
  simp only [hexText, List.mem_cons, zero, notMark, digits, or_self, not_false_iff]

theorem pmcText_clean (values : List UInt64) : '\n' ∉ pmcText values := by
  intro member
  rw [pmcText, List.mem_flatMap] at member
  obtain ⟨value, -, inside⟩ := member
  rcases List.mem_cons.mp inside with comma | digit
  · exact absurd comma (by decide)
  · exact not_mem_of_all (toDigits_digits (by decide) (by decide) _) (by decide) digit

theorem csvLine_ends (reading : Reading) :
    ∃ body, '\n' ∉ body ∧ csvLine reading = body ++ ['\n'] := by
  refine ⟨Nat.toDigits 16 reading.tsc.toNat ++ ',' :: (hexText reading.returnSite.toNat ++
    ',' :: (dataText reading.data ++ pmcText (reading.pmc.getD []))), ?_, ?_⟩
  · have tsc := not_mem_of_all (toDigits_digits (by decide) (by decide) reading.tsc.toNat)
      (show isDigitOf 16 '\n' = false by decide)
    have site := hexText_clean (show isDigitOf 16 '\n' = false by decide) (by decide)
      reading.returnSite.toNat
    have data := not_mem_of_all (dataText_digits reading.data)
      (show isDigitOf 16 '\n' = false by decide)
    simp [tsc, site, data, pmcText_clean]
  · simp [csvLine]

theorem lines_line {text : List Char} (clean : '\n' ∉ text) (rest : List Char) :
    lines (text ++ '\n' :: rest) = (text ++ ['\n']) :: lines rest := by
  induction text with
  | nil => rw [List.nil_append, lines, if_pos rfl, List.nil_append]
  | cons char text ih =>
      rw [List.mem_cons, not_or] at clean
      rw [List.cons_append, lines, if_neg (Ne.symm clean.1), ih clean.2]
      rfl

theorem lines_csvLines (readings : List Reading) :
    lines (readings.flatMap csvLine) = readings.map csvLine := by
  induction readings with
  | nil => rfl
  | cons reading readings ih =>
      obtain ⟨body, clean, line⟩ := csvLine_ends reading
      rw [List.flatMap_cons, List.map_cons, line, List.append_assoc, List.singleton_append,
        lines_line clean, ih]

theorem csvHeader_columns (indices : List Nat) {text : List Char} (clean : '\n' ∉ text) :
    ∃ title, '\n' ∉ title ∧
      indices.foldl (fun stream index => (OStream.put stream ",Pmc-".toList).number (index + 1))
        ⟨text, false, 0, ' '⟩ = ⟨title, false, 0, ' '⟩ := by
  induction indices generalizing text with
  | nil => exact ⟨text, clean, rfl⟩
  | cons index indices ih =>
      have digits := not_mem_of_all (toDigits_digits (by decide) (by decide) (index + 1))
        (show isDigitOf 10 '\n' = false by decide)
      have wider : '\n' ∉ text ++ ",Pmc-".toList ++ Nat.toDigits 10 (index + 1) := by
        simp [clean, digits]
      have step : (OStream.put ⟨text, false, 0, ' '⟩ ",Pmc-".toList).number (index + 1) =
          ⟨text ++ ",Pmc-".toList ++ Nat.toDigits 10 (index + 1), false, 0, ' '⟩ := by
        simp [OStream.put, OStream.number, OStream.base, List.leftpad]
      rw [List.foldl_cons, step]
      exact ih wider

theorem csvHeader_eq (pmcCount : Nat) :
    ∃ title, '\n' ∉ title ∧ csvHeader pmcCount = ⟨title ++ ['\n'], false, 0, ' '⟩ := by
  have start : OStream.new.put "Tsc,ReturnSite,Data".toList =
      ⟨"Tsc,ReturnSite,Data".toList, false, 0, ' '⟩ := by
    simp [OStream.new, OStream.put, List.leftpad]
  obtain ⟨title, clean, columns⟩ := csvHeader_columns (List.range pmcCount)
    (show '\n' ∉ "Tsc,ReturnSite,Data".toList by decide)
  refine ⟨title, clean, ?_⟩
  rw [csvHeader, start, columns]
  rfl

theorem records_eq (pmcCount : Nat) {readings : List Reading}
    (nonNull : ∀ reading ∈ readings, reading.returnSite ≠ 0) :
    (lines (streamAsCsv pmcCount readings)).drop 1 = readings.map csvLine := by
  obtain ⟨title, clean, header⟩ := csvHeader_eq pmcCount
  rw [streamAsCsv, header, foldl_csvRecord _ _ nonNull, List.append_assoc, List.singleton_append,
    lines_line clean, lines_csvLines]
  rfl

def lastFields : List Char → List UInt64 → List (List Char)
  | text, [] => [text ++ ['\n']]
  | text, value :: values => text :: lastFields (Nat.toDigits 10 value.toNat) values

theorem splitOn_lastFields {text : List Char} (clean : ',' ∉ text) (values : List UInt64) :
    (text ++ pmcText values ++ ['\n']).splitOn ',' = lastFields text values := by
  induction values generalizing text with
  | nil =>
      have whole : ',' ∉ text ++ ['\n'] := by simp [clean]
      rw [pmcText, List.flatMap_nil, List.append_nil, List.splitOn_eq_singleton whole, lastFields]
  | cons value values ih =>
      have digits := not_mem_of_all (toDigits_digits (by decide) (by decide) value.toNat)
        (show isDigitOf 10 ',' = false by decide)
      have split : text ++ pmcText (value :: values) ++ ['\n'] =
          text ++ ',' :: (Nat.toDigits 10 value.toNat ++ pmcText values ++ ['\n']) := by
        simp [pmcText]
      rw [split, List.splitOn_append_cons_self_of_not_mem clean, ih digits, lastFields]

theorem splitOn_csvLine (reading : Reading) :
    (csvLine reading).splitOn ',' =
      Nat.toDigits 16 reading.tsc.toNat :: hexText reading.returnSite.toNat ::
        lastFields (dataText reading.data) (reading.pmc.getD []) := by
  have tsc := not_mem_of_all (toDigits_digits (by decide) (by decide) reading.tsc.toNat)
    (show isDigitOf 16 ',' = false by decide)
  have site := hexText_clean (show isDigitOf 16 ',' = false by decide) (by decide)
    reading.returnSite.toNat
  have data := not_mem_of_all (dataText_digits reading.data)
    (show isDigitOf 16 ',' = false by decide)
  rw [csvLine, List.splitOn_append_cons_self_of_not_mem tsc,
    List.splitOn_append_cons_self_of_not_mem site, splitOn_lastFields data]

section Reading

variable {π φ loader : Type}

theorem lastFields_read (text : List Char) (values : List UInt64) :
    ∃ spaces later, lastFields text values = (text ++ spaces) :: later ∧
      (∀ char ∈ spaces, isSpace char) ∧
      ∀ counter : Counter π, addPmcs counter later =
        .ok (values.foldl (fun counter value => counter.addPmc value.toNat) counter) := by
  induction values generalizing text with
  | nil => exact ⟨['\n'], [], rfl, by simp [isSpace], fun _ => rfl⟩
  | cons value values ih =>
      obtain ⟨spaces, later, fields, blank, read⟩ := ih (Nat.toDigits 10 value.toNat)
      refine ⟨[], lastFields (Nat.toDigits 10 value.toNat) values, ?_, by simp, ?_⟩
      · rw [lastFields, List.append_nil]
      · intro counter
        rw [fields, addPmcs, int_toDigits (by decide) (by decide) _ blank]
        exact read _

variable (collaborators : Collaborators π φ loader) (threadId : List Char)
  (probes : List Char → Option π)

theorem loadCounter_csvLine (extractor : Extractor φ loader) (reading : Reading) :
    loadCounter collaborators threadId probes extractor (csvLine reading) =
      .ok (loadSample collaborators threadId probes extractor reading) := by
  obtain ⟨spaces, later, fields, blank, read⟩ := @lastFields_read π
    (dataText reading.data) (reading.pmc.getD [])
  have solid : ∀ char ∈ dataText reading.data, isSpace char = false :=
    fun char member => isSpace_eq_false_of_digit (by decide) (dataText_digits _ char member)
  have plain : ∀ char ∈ ([] : List Char), isSpace char := by simp
  have tsc := int_toDigits (show 1 < 16 by decide) (by decide) reading.tsc.toNat plain
  rw [List.append_nil] at tsc
  have counter : ∀ probe : π,
      Counter.new threadId probe (dataText reading.data ++ spaces) (Int.ofNat reading.tsc.toNat) =
        Counter.new threadId probe (dataText reading.data) reading.tsc.toNat := by
    intro probe
    have stripped := strip_append_spaces solid plain
    rw [List.append_nil] at stripped
    rw [Counter.new, Counter.new, strip_append_spaces solid blank, stripped]
    rfl
  have enough : ¬(Nat.toDigits 16 reading.tsc.toNat :: hexText reading.returnSite.toNat ::
      (dataText reading.data ++ spaces) :: later).length < minFieldCount := by
    rw [List.length_cons, List.length_cons, minFieldCount]
    omega
  simp only [loadCounter, splitOn_csvLine, fields]
  rw [if_neg enough]
  have columns : ∀ (first second third : List Char) (others : List (List Char)),
      (first :: second :: third :: others).getD indexTsc [] = first ∧
      (first :: second :: third :: others).getD indexAddr [] = second ∧
      (first :: second :: third :: others)[indexData]? = some third ∧
      (first :: second :: third :: others).drop (minFieldCount + 1) = others :=
    fun _ _ _ _ => ⟨rfl, rfl, rfl, rfl⟩
  simp only [columns, tsc, counter, read]
  rw [loadSample]
  cases probes (hexText reading.returnSite.toNat) with
  | none => rfl
  | some probe =>
      cases reading.data with
      | none => rfl
      | some data => rfl

theorem loadRecords_csvLines (extractor : Extractor φ loader) (readings : List Reading) :
    loadRecords collaborators threadId probes extractor (readings.map csvLine) =
      .ok (loadSamples collaborators threadId probes extractor readings) := by
  induction readings generalizing extractor with
  | nil => rfl
  | cons reading readings ih =>
      rw [List.map_cons, loadRecords, loadCounter_csvLine]
      simp only [ih, loadSamples]

/-- Both ways give the same counters, orphans and deliveries. -/
theorem csv_loads_as_binary (pmcCount : Nat) (samples : List Sample)
    (nonNull : ∀ sample ∈ samples, sample.returnSite ≠ 0) (extractor : Extractor φ loader) :
    loadRecords collaborators threadId probes extractor
        ((lines (streamAsCsv pmcCount (samples.map Sample.reading))).drop 1) =
      .ok (loadSamples collaborators threadId probes extractor
        (samples.map Sample.reading)) := by
  have sites : ∀ reading ∈ samples.map Sample.reading, reading.returnSite ≠ 0 := by
    intro reading member
    obtain ⟨sample, isSample, rfl⟩ := List.mem_map.mp member
    exact nonNull sample isSample
  rw [records_eq pmcCount sites, loadRecords_csvLines]

end Reading

/-- A sample with data and a counter, of a probe, and one that no probe accounts for. -/
def probedAndOrphaned : List Sample :=
  [⟨0x400005, ⟨1000, by decide⟩, some (BitVec.ofNat 128 (5 * 2 ^ 64 + 171)), some ⟨[42], by decide⟩⟩,
    ⟨0x400105, ⟨2000, by decide⟩, none, none⟩]

theorem csv_loads_as_binary_probedAndOrphaned :
    (∀ sample ∈ probedAndOrphaned, sample.returnSite ≠ 0) ∧
      loadRecords (⟨fun _ _ => (true, ()), fun loaded counter => loaded ++ [counter]⟩ :
          Collaborators Nat Unit (List (Counter Nat)))
          "7".toList (fun site => if site = "0x400005".toList then some 3 else none) ⟨0, (), []⟩
          ((lines (streamAsCsv 1 (probedAndOrphaned.map Sample.reading))).drop 1) =
        .ok (loadSamples ⟨fun _ _ => (true, ()), fun loaded counter => loaded ++ [counter]⟩
          "7".toList (fun site => if site = "0x400005".toList then some 3 else none) ⟨0, (), []⟩
          (probedAndOrphaned.map Sample.reading)) :=
  have nonNull : ∀ sample ∈ probedAndOrphaned, sample.returnSite ≠ 0 := by
    simp [probedAndOrphaned]
  ⟨nonNull, csv_loads_as_binary _ _ _ 1 probedAndOrphaned nonNull ⟨0, (), []⟩⟩

end Xpedite.Samples
