import Mathlib.Data.List.TakeWhile
import Xpedite.Samples.Csv
import Xpedite.Samples.Trampoline
import Xpedite.Txn.LoaderCore

/-!
The id that links a suspended transaction to its resumption.  The loader builds it
from the time stamp of the suspending counter and the name of the samples file;
the resuming probe stores it as data.  Sources: `SamplesBuffer.H`, `StorageMgr.C`,
`dataSource.py`.
-/

namespace Xpedite.Samples

open Lib
open Txn.Loader (linkId)

def buildTidStr (tid : Nat) (tlsAddr : UInt64) : List Char :=
  (((((OStream.new.number tid).put ['-']).setw 16).setfill '0').hex.number tlsAddr.toNat).dec.text

def buildSamplesFileTemplate (processName : List Char) (time : Nat) : List Char :=
  "/dev/shm/".toList ++ ("xpedite-".toList ++ processName) ++ ['-'] ++ Nat.toDigits 10 time ++
    "-*".toList ++ ".data".toList

/-- The first `*` of the template makes way for the thread. -/
def buildSampledFilePath (template tidStr : List Char) : List Char :=
  match template.dropWhile (· ≠ '*') with
  | [] => template
  | _ :: rest => template.takeWhile (· ≠ '*') ++ tidStr ++ rest

def group (accepts : Char → Bool) (text : List Char) : Option (List Char × List Char) :=
  match text.takeWhile accepts with
  | [] => none
  | matched => some (matched, text.dropWhile accepts)

def literal (expected : List Char) (text : List Char) : Option (List Char) :=
  if expected.isPrefixOf text then some (text.drop expected.length) else none

def isHexDigit (char : Char) : Bool :=
  char.isDigit || ('a' ≤ char && char ≤ 'f') || ('A' ≤ char && char ≤ 'F')

/--
`[^\d]*(\d+)-(\d+)-([0-9a-fA-F]+)\.data` at the beginning of a text, with its second and
third group.  No part can give back a character that the next one would take.
-/
def matchHere (text : List Char) : Option (List Char × List Char) := do
  let (_, text) ← group Char.isDigit (text.dropWhile fun char => !char.isDigit)
  let text ← literal ['-'] text
  let (threadId, text) ← group Char.isDigit text
  let text ← literal ['-'] text
  let (tlsAddr, text) ← group isHexDigit text
  let _ ← literal ".data".toList text
  return (threadId, tlsAddr)

def extractThreadInfo : List Char → Option (List Char × List Char)
  | [] => matchHere []
  | char :: rest =>
      match matchHere (char :: rest) with
      | some info => some info
      | none => extractThreadInfo rest

def tlsText (tlsAddr : UInt64) : List Char := (Nat.toDigits 16 tlsAddr.toNat).leftpad 16 '0'

theorem buildTidStr_eq (tid : Nat) (tlsAddr : UInt64) :
    buildTidStr tid tlsAddr = Nat.toDigits 10 tid ++ '-' :: tlsText tlsAddr := by
  simp [buildTidStr, tlsText, OStream.new, OStream.hex, OStream.number, OStream.put, OStream.setw,
    OStream.setfill, OStream.dec, OStream.base, List.leftpad]

theorem linkId_eq_dataStr (tsc tlsAddr : UInt64) :
    linkId tsc.toNat (tlsText tlsAddr) = dataStr (tlsAddr, tsc) := by
  rw [dataStr_eq, linkId, tlsText]

theorem length_tlsText (tlsAddr : UInt64) : (tlsText tlsAddr).length = 16 := by
  have bound : (Nat.toDigits 16 tlsAddr.toNat).length ≤ 16 :=
    (Nat.length_toDigits_le_iff (by decide) (by decide)).mpr tlsAddr.toNat_lt
  rw [tlsText, List.length_leftpad]
  omega

theorem tlsText_injective {first second : UInt64} (same : tlsText first = tlsText second) :
    first = second := by
  have value : ∀ tlsAddr : UInt64,
      (tlsText tlsAddr).foldl (fun total char => total * 16 + charValue char) 0 =
        tlsAddr.toNat := by
    intro tlsAddr
    have plain := foldl_toDigits charValue id (show 1 < 16 by decide)
      (fun _ => charValue_digitChar) tlsAddr.toNat
    rw [List.map_id] at plain
    rw [tlsText, List.leftpad, foldl_zeros charValue (by decide), plain]
  apply UInt64.toNat_inj.mp
  rw [← value first, same, value second]

/-- The sixteen digits of the address tell where those of the time stamp end. -/
theorem linkId_injective {tsc tlsAddr otherTsc otherTls : UInt64}
    (same : linkId tsc.toNat (tlsText tlsAddr) = linkId otherTsc.toNat (tlsText otherTls)) :
    tsc = otherTsc ∧ tlsAddr = otherTls := by
  have lengths : (tlsText tlsAddr).length = (tlsText otherTls).length := by
    rw [length_tlsText, length_tlsText]
  obtain ⟨stamps, addresses⟩ := List.append_inj' same lengths
  exact ⟨UInt64.toNat_inj.mp (toDigits_sixteen_injective stamps), tlsText_injective addresses⟩

theorem group_some {accepts : Char → Bool} {text matched rest : List Char}
    (found : group accepts text = some (matched, rest)) :
    text = matched ++ rest ∧ ∀ char ∈ matched, accepts char := by
  have whole := List.takeWhile_append_dropWhile (p := accepts) (l := text)
  rw [group] at found
  split at found
  · cases found
  · rw [Option.some_inj, Prod.mk.injEq] at found
    obtain ⟨rfl, rfl⟩ := found
    exact ⟨whole.symm, fun _ member => List.mem_takeWhile_imp member⟩

theorem group_append {accepts : Char → Bool} {matched : List Char} (rest : List Char)
    (full : matched ≠ []) (accepted : ∀ char ∈ matched, accepts char)
    (stop : ∀ char ∈ rest.head?, accepts char = false) :
    group accepts (matched ++ rest) = some (matched, rest) := by
  have none : rest.takeWhile accepts = [] ∧ rest.dropWhile accepts = rest := by
    cases rest with
    | nil => exact ⟨rfl, rfl⟩
    | cons char rest =>
        have refused := stop char rfl
        simp only [List.takeWhile_cons, List.dropWhile_cons, refused]
        exact ⟨rfl, rfl⟩
  rw [group, List.takeWhile_append_of_pos accepted, List.dropWhile_append_of_pos accepted, none.1,
    none.2, List.append_nil]
  cases matched with
  | nil => exact absurd rfl full
  | cons char matched => rfl

theorem literal_some {expected text rest : List Char}
    (found : literal expected text = some rest) : text = expected ++ rest := by
  rw [literal] at found
  split at found
  · rename_i isFront
    obtain ⟨later, rfl⟩ := List.isPrefixOf_iff_prefix.mp isFront
    rw [List.drop_left, Option.some_inj] at found
    rw [found]
  · cases found

theorem literal_append (expected rest : List Char) :
    literal expected (expected ++ rest) = some rest := by
  have isFront : expected.isPrefixOf (expected ++ rest) :=
    List.isPrefixOf_iff_prefix.mpr (List.prefix_append expected rest)
  rw [literal, if_pos isFront, List.drop_left]

theorem matchHere_some {text threadId tlsAddr : List Char}
    (found : matchHere text = some (threadId, tlsAddr)) :
    (∀ char ∈ threadId, char.isDigit) ∧ (∀ char ∈ tlsAddr, isHexDigit char) ∧
      ∃ front rest,
        text = front ++ '-' :: threadId ++ '-' :: tlsAddr ++ '.' :: ("data".toList ++ rest) := by
  simp only [matchHere, Option.bind_eq_bind, Option.bind_eq_some_iff, Option.pure_def,
    Option.some_inj, Prod.exists, Prod.mk.injEq] at found
  obtain ⟨runId, second, isRun, third, firstDash, _, fourth, isThread, fifth, secondDash, _, sixth,
    isTls, rest, suffix, rfl, rfl⟩ := found
  obtain ⟨thread, digits⟩ := group_some isThread
  obtain ⟨tls, hexDigits⟩ := group_some isTls
  have run := (group_some isRun).1
  have whole := List.takeWhile_append_dropWhile (p := fun char : Char => !char.isDigit) (l := text)
  rw [run, literal_some firstDash, thread, literal_some secondDash, tls, literal_some suffix] at whole
  generalize text.takeWhile (fun char => !char.isDigit) = before at whole
  refine ⟨digits, hexDigits, before ++ runId, rest, ?_⟩
  rw [← whole]
  simp

/-- A text is cut in the same place by a character that one of the sides cannot have. -/
theorem append_cons_inj {char : Char} {front other back later : List Char}
    (clean : char ∉ back) (otherClean : char ∉ later ∨ char ∉ front)
    (same : front ++ char :: back = other ++ char :: later) : front = other ∧ back = later := by
  rw [List.append_eq_append_iff] at same
  rcases same with ⟨middle, rfl, tails⟩ | ⟨middle, rfl, tails⟩
  · cases middle with
    | nil => exact ⟨(List.append_nil front).symm, (List.cons.inj tails).2⟩
    | cons first middle =>
        have member : char ∈ back := by simp [(List.cons.inj tails).2]
        exact absurd member clean
  · cases middle with
    | nil => exact ⟨List.append_nil other, (List.cons.inj tails).2.symm⟩
    | cons first middle =>
        have inLater : char ∈ later := by simp [(List.cons.inj tails).2]
        have inFront : char ∈ other ++ first :: middle := by simp [(List.cons.inj tails).1]
        rcases otherClean with laterClean | frontClean
        · exact absurd inLater laterClean
        · exact absurd inFront frontClean

theorem extractThreadInfo_of_unique {text : List Char} {info : List Char × List Char}
    (unique : ∀ front back found, text = front ++ back → matchHere back = some found → found = info)
    (occurs : ∃ front back, text = front ++ back ∧ matchHere back = some info) :
    extractThreadInfo text = some info := by
  induction text with
  | nil =>
      obtain ⟨front, back, empty, here⟩ := occurs
      obtain ⟨rfl, rfl⟩ := List.append_eq_nil_iff.mp empty.symm
      exact here
  | cons char text ih =>
      rw [extractThreadInfo]
      split
      · rename_i found here
        rw [unique [] (char :: text) found rfl here]
      · rename_i noneHere
        apply ih
        · intro front back found parts here
          exact unique (char :: front) back found (by rw [parts, List.cons_append]) here
        · obtain ⟨front, back, parts, here⟩ := occurs
          cases front with
          | nil =>
              obtain rfl : char :: text = back := parts
              rw [noneHere] at here
              cases here
          | cons first front => exact ⟨front, back, (List.cons.inj parts).2, here⟩

section Extraction

variable {head threadId tlsAddr : List Char} (digits : ∀ char ∈ threadId, char.isDigit)
  (hexDigits : ∀ char ∈ tlsAddr, isHexDigit char)

include digits hexDigits

theorem matchHere_unique (dotless : '.' ∉ head) {front back : List Char}
    {found : List Char × List Char}
    (parts : head ++ '-' :: threadId ++ '-' :: tlsAddr ++ ".data".toList = front ++ back)
    (here : matchHere back = some found) : found = (threadId, tlsAddr) := by
  obtain ⟨foundThread, foundTls⟩ := found
  obtain ⟨foundDigits, foundHex, before, rest, rfl⟩ := matchHere_some here
  have single : '.' ∉ head ++ '-' :: threadId ++ '-' :: tlsAddr := by
    simp [dotless, not_mem_of_all digits (show Char.isDigit '.' = false by decide),
      not_mem_of_all hexDigits (show isHexDigit '.' = false by decide)]
  rw [← List.append_assoc] at parts
  have atDot := (append_cons_inj (by decide) (.inr single) parts).1
  simp only [← List.append_assoc] at atDot
  have dash : isHexDigit '-' = false := by decide
  obtain ⟨upToThread, rfl⟩ := append_cons_inj (not_mem_of_all hexDigits dash)
    (.inl (not_mem_of_all foundHex dash)) atDot
  have dash : Char.isDigit '-' = false := by decide
  obtain ⟨-, rfl⟩ := append_cons_inj (not_mem_of_all digits dash)
    (.inl (not_mem_of_all foundDigits dash)) upToThread
  rfl

theorem matchHere_name {runId : List Char} (runDigits : ∀ char ∈ runId, char.isDigit)
    (someRun : runId ≠ []) (someThread : threadId ≠ []) (someTls : tlsAddr ≠ []) :
    matchHere (runId ++ '-' :: threadId ++ '-' :: tlsAddr ++ ".data".toList) =
      some (threadId, tlsAddr) := by
  have run := group_append ('-' :: (threadId ++ '-' :: (tlsAddr ++ ".data".toList))) someRun
    runDigits (by simp)
  have thread := group_append ('-' :: (tlsAddr ++ ".data".toList)) someThread digits (by simp)
  have tls := group_append ".data".toList someTls hexDigits (by simp; decide)
  have dash : ∀ rest, literal ['-'] ('-' :: rest) = some rest := literal_append ['-']
  have suffix : literal ".data".toList ".data".toList = some [] := by decide
  have start : ∀ later, (runId ++ later).dropWhile (fun char => !char.isDigit) = runId ++ later := by
    intro later
    cases runId with
    | nil => exact absurd rfl someRun
    | cons char runId =>
        rw [List.cons_append, List.dropWhile_cons, runDigits char List.mem_cons_self]
        rfl
  simp only [List.append_assoc, List.cons_append]
  simp only [matchHere, start, run, thread, tls, dash, suffix, Option.bind_eq_bind,
    Option.bind_some, Option.pure_def]

end Extraction

theorem tlsText_hexDigits (tlsAddr : UInt64) : ∀ char ∈ tlsText tlsAddr, isHexDigit char := by
  intro char member
  rw [tlsText, List.leftpad, List.mem_append, List.mem_replicate] at member
  rcases member with ⟨-, rfl⟩ | inside
  · decide
  · obtain ⟨digit, small, rfl⟩ := digitChar_of_mem_toDigits (by decide) inside
    have table : ∀ digit < 16, isHexDigit (Nat.digitChar digit) := by decide
    exact table digit small

theorem buildSampledFilePath_star {before : List Char} (starless : '*' ∉ before)
    (rest tidStr : List Char) :
    buildSampledFilePath (before ++ '*' :: rest) tidStr = before ++ tidStr ++ rest := by
  have others : ∀ char ∈ before, decide (char ≠ '*') = true := by
    intro char member
    apply decide_eq_true
    rintro rfl
    exact starless member
  rw [buildSampledFilePath, List.dropWhile_append_of_pos others,
    List.takeWhile_append_of_pos others, List.dropWhile_cons, List.takeWhile_cons]
  simp

def pathHead (processName : List Char) : List Char :=
  "/dev/shm/".toList ++ ("xpedite-".toList ++ processName)

theorem pathHead_clean {processName : List Char} {char : Char}
    (directory : char ∉ "/dev/shm/".toList) (front : char ∉ "xpedite-".toList)
    (name : char ∉ processName) : char ∉ pathHead processName := by
  intro member
  rcases List.mem_append.mp member with inDirectory | inFile
  · exact directory inDirectory
  · rcases List.mem_append.mp inFile with inFront | inName
    · exact front inFront
    · exact name inName

theorem buildSampledFilePath_template {processName : List Char} (starless : '*' ∉ processName)
    (time : Nat) (tidStr : List Char) :
    buildSampledFilePath (buildSamplesFileTemplate processName time) tidStr =
      pathHead processName ++ '-' :: Nat.toDigits 10 time ++ '-' :: tidStr ++ ".data".toList := by
  have template : buildSamplesFileTemplate processName time =
      pathHead processName ++ ['-'] ++ Nat.toDigits 10 time ++ ['-', '*'] ++ ".data".toList := rfl
  have clean := pathHead_clean (show '*' ∉ "/dev/shm/".toList by decide) (by decide) starless
  have digits : '*' ∉ Nat.toDigits 10 time :=
    not_mem_of_all (toDigits_digits (by decide) (by decide) time) (by decide)
  rw [template]
  generalize pathHead processName = head at clean
  have before : '*' ∉ head ++ ['-'] ++ Nat.toDigits 10 time ++ ['-'] := by simp [clean, digits]
  have star := buildSampledFilePath_star before ".data".toList tidStr
  simp only [List.append_assoc, List.cons_append, List.nil_append] at star ⊢
  exact star

theorem extractThreadInfo_path {processName : List Char} (dotless : '.' ∉ processName)
    (starless : '*' ∉ processName) (time tid : Nat) (tlsAddr : UInt64) :
    extractThreadInfo (buildSampledFilePath (buildSamplesFileTemplate processName time)
        (buildTidStr tid tlsAddr)) =
      some (Nat.toDigits 10 tid, tlsText tlsAddr) := by
  have digits : ∀ number, ∀ char ∈ Nat.toDigits 10 number, char.isDigit :=
    fun number char member => Nat.isDigit_of_mem_toDigits (by decide) (by decide) member
  have hexDigits := tlsText_hexDigits tlsAddr
  have someTls : tlsText tlsAddr ≠ [] := by
    apply List.ne_nil_of_length_pos
    rw [length_tlsText]
    omega
  have path : buildSampledFilePath (buildSamplesFileTemplate processName time)
        (buildTidStr tid tlsAddr) =
      (pathHead processName ++ '-' :: Nat.toDigits 10 time) ++
        '-' :: Nat.toDigits 10 tid ++ '-' :: tlsText tlsAddr ++ ".data".toList := by
    rw [buildSampledFilePath_template starless, buildTidStr_eq]
    simp only [List.append_assoc, List.cons_append]
  have name := matchHere_name (digits tid) hexDigits (digits time) Nat.toDigits_ne_nil
    Nat.toDigits_ne_nil someTls
  have clean := pathHead_clean (show '.' ∉ "/dev/shm/".toList by decide) (by decide) dotless
  have dotlessHead : '.' ∉ pathHead processName ++ '-' :: Nat.toDigits 10 time := by
    simp [clean, not_mem_of_all (digits time) (show Char.isDigit '.' = false by decide)]
  rw [path]
  apply extractThreadInfo_of_unique
  · intro front back found parts here
    exact matchHere_unique (digits tid) hexDigits dotlessHead parts here
  · refine ⟨pathHead processName ++ ['-'], _, ?_, name⟩
    simp only [List.append_assoc, List.cons_append, List.nil_append]

theorem reading_place (sample : Sample) (memory : Memory) (this : Nat) :
    reading (sample.place memory this) this = sample.reading := by
  rw [sample.place_eq_write]
  exact (stands_of_holds (memory.holds_write this sample.bytes)).reading_eq

theorem Records.reading_eq {layout : TlsLayout} {before after : Machine} {sample : Sample}
    (records : Records layout before after sample) :
    reading after.memory (before.tls layout.samplesBufferPtr).toNat = sample.reading := by
  rw [records.1]
  exact reading_place sample _ _

def Machine.nextSample (layout : TlsLayout) (machine after : Machine) : Reading :=
  reading after.memory (machine.tls layout.samplesBufferPtr).toNat

section Suspension

variable {layout resumingLayout : TlsLayout} {suspending resuming : Machine}
  {site resumeSite : UInt64} {callers resumeCallers : List UInt64}

theorem resumed_data (entered : Entered layout suspending site callers) (clock resumeClock : Tsc)
    (resumes : Entered resumingLayout resuming resumeSite resumeCallers) :
    ∃ suspended, suspending.run layout clock.val xpediteIdentityTrampoline = some suspended ∧
      (suspending.nextSample layout suspended).tsc = clock.val ∧
      (resuming.registers .rax = suspended.registers .rax →
        resuming.registers .rdx = suspended.registers .rdx →
        ∃ resumed, resuming.run resumingLayout resumeClock.val xpediteDataProbeTrampoline =
            some resumed ∧
          (resuming.nextSample resumingLayout resumed).data =
            some (suspending.tls 0, clock.val)) := by
  have ran := run_identity entered clock.val
  obtain ⟨suspended, isRun, records⟩ := identity_records entered clock
  refine ⟨suspended, isRun, ?_, ?_⟩
  · rw [Machine.nextSample, records.reading_eq, Sample.reading]
  · intro low high
    rw [ran, Option.some_inj] at isRun
    obtain ⟨resumed, resumedRun, resumedRecords⟩ := data_records resumes resumeClock
    have lowWord_eq : resuming.registers .rax = suspending.tls 0 := by
      rw [low, ← isRun]
      rfl
    have highWord_eq : resuming.registers .rdx = clock.val := by
      rw [high, ← isRun]
      rfl
    refine ⟨resumed, resumedRun, ?_⟩
    rw [Machine.nextSample, resumedRecords.reading_eq, Sample.reading, Option.map_some,
      lowWord_datum, highWord_datum, lowWord_eq, highWord_eq]

end Suspension

theorem csvData_linkId (text : List Char) (fill : Char) (tsc tlsAddr : UInt64) :
    (csvData ⟨text, false, 0, fill⟩ (some (tlsAddr, tsc))).text =
      text ++ ',' :: linkId tsc.toNat (tlsText tlsAddr) := by
  obtain ⟨filled, column⟩ := csvData_eq text fill (some (tlsAddr, tsc))
  rw [column, linkId_eq_dataStr, dataText]

/--
The loader's link id of a suspending counter is the text of the data that the
resuming probe records, in both forms of the data, and of no other suspension.
-/
theorem linkIds_agree :
    (∀ processName time tid tlsAddr, '.' ∉ processName → '*' ∉ processName →
      extractThreadInfo (buildSampledFilePath (buildSamplesFileTemplate processName time)
        (buildTidStr tid tlsAddr)) = some (Nat.toDigits 10 tid, tlsText tlsAddr)) ∧
    (∀ tid tlsAddr, buildTidStr tid tlsAddr = Nat.toDigits 10 tid ++ '-' :: tlsText tlsAddr) ∧
    (∀ layout suspending site callers, Entered layout suspending site callers →
      ∀ resumingLayout resuming resumeSite resumeCallers,
        Entered resumingLayout resuming resumeSite resumeCallers → ∀ clock resumeClock : Tsc,
        ∃ suspended, suspending.run layout clock.val xpediteIdentityTrampoline = some suspended ∧
          (suspending.nextSample layout suspended).tsc = clock.val ∧
          (resuming.registers .rax = suspended.registers .rax →
            resuming.registers .rdx = suspended.registers .rdx →
            ∃ resumed, resuming.run resumingLayout resumeClock.val xpediteDataProbeTrampoline =
                some resumed ∧
              (resuming.nextSample resumingLayout resumed).data =
                some (suspending.tls 0, clock.val))) ∧
    (∀ (tsc : Tsc) (tlsAddr : UInt64),
      linkId tsc.val.toNat (tlsText tlsAddr) = dataStr (tlsAddr, tsc.val) ∧
      ∀ text fill, (csvData ⟨text, false, 0, fill⟩ (some (tlsAddr, tsc.val))).text =
        text ++ ',' :: linkId tsc.val.toNat (tlsText tlsAddr)) ∧
    ∀ (tsc otherTsc : Tsc) (tlsAddr otherTls : UInt64),
      linkId tsc.val.toNat (tlsText tlsAddr) = linkId otherTsc.val.toNat (tlsText otherTls) →
      tsc = otherTsc ∧ tlsAddr = otherTls := by
  refine ⟨?_, buildTidStr_eq, ?_, ?_, ?_⟩
  · intro processName time tid tlsAddr dotless starless
    exact extractThreadInfo_path dotless starless time tid tlsAddr
  · intro layout suspending site callers entered resumingLayout resuming resumeSite resumeCallers
      resumes clock resumeClock
    exact resumed_data entered clock resumeClock resumes
  · intro tsc tlsAddr
    exact ⟨linkId_eq_dataStr tsc.val tlsAddr, fun text fill => csvData_linkId text fill _ _⟩
  · intro tsc otherTsc tlsAddr otherTls same
    obtain ⟨stamps, addresses⟩ := linkId_injective same
    exact ⟨Subtype.ext stamps, addresses⟩

def resumingThread : Machine :=
  { atFirstSample with
    registers := fun register => if register = .rax then 0x7F00 else 1000
    stack := [0x400105] }

theorem linkIds_agree_app :
    extractThreadInfo (buildSampledFilePath (buildSamplesFileTemplate "app".toList 1700000000)
        (buildTidStr 4711 0x7F00)) = some (Nat.toDigits 10 4711, tlsText 0x7F00) ∧
      ∃ resumed, resumingThread.run twoVariables 2000 xpediteDataProbeTrampoline = some resumed ∧
        (resumingThread.nextSample twoVariables resumed).data = some (0x7F00, 1000) := by
  have suspends : Entered twoVariables atFirstSample 0x400005 [] := ⟨rfl, by decide⟩
  have resumes : Entered twoVariables resumingThread 0x400105 [] := ⟨rfl, by decide⟩
  refine ⟨linkIds_agree.1 _ _ _ _ (by decide) (by decide), ?_⟩
  obtain ⟨suspended, run, -, resume⟩ := linkIds_agree.2.2.1 _ _ _ _ suspends _ _ _ _ resumes
    ⟨1000, by decide⟩ ⟨2000, by decide⟩
  rw [run_identity suspends, Option.some_inj] at run
  subst run
  exact resume rfl rfl

end Xpedite.Samples
