import Xpedite.Framework.PmcBound

/-!
The recorders of `Recorders.C` and the two tables of `RecorderCtl.C` they are picked from.
What the logging recorders write to the log is left out.
-/

namespace Xpedite.Framework

open Lib Samples

structure ThreadBuffer where
  memory : Memory
  samplesBufferPtr : Nat
  samplesBufferEnd : Nat

structure Surroundings where
  expand : ThreadBuffer → ThreadBuffer
  pmu : PmuCtl
  rdpmc : Nat → UInt64
  -- the values of the thread's event set, to which there may be no more than a null pointer
  perfEvents : Option (List UInt64)

namespace ThreadBuffer

/-- There is no result when the sample cannot be constructed. -/
def append (buffer : ThreadBuffer) (sample : Memory → Nat → Option Memory) :
    Option ThreadBuffer :=
  if buffer.samplesBufferPtr < buffer.samplesBufferEnd then
    (sample buffer.memory buffer.samplesBufferPtr).map fun memory =>
      { buffer with
        memory := memory
        samplesBufferPtr := next memory buffer.samplesBufferPtr }
  else some buffer

def expandIfFull (surroundings : Surroundings) (buffer : ThreadBuffer) : ThreadBuffer :=
  if buffer.samplesBufferEnd ≤ buffer.samplesBufferPtr then surroundings.expand buffer else buffer

end ThreadBuffer

def XpediteRecorder : Type := ThreadBuffer → UInt64 → UInt64 → Option ThreadBuffer

def XpediteDataProbeRecorder : Type :=
  ThreadBuffer → UInt64 → UInt64 → BitVec 128 → Option ThreadBuffer

namespace Recorders

variable (surroundings : Surroundings)

def xpediteExpandAndRecord : XpediteRecorder := fun buffer returnSite tsc =>
  (buffer.expandIfFull surroundings).append fun memory this =>
    some (construct memory this returnSite tsc)

def xpediteExpandAndRecordWithData : XpediteDataProbeRecorder := fun buffer returnSite tsc data =>
  (buffer.expandIfFull surroundings).append fun memory this =>
    some (constructWithData memory this returnSite tsc data)

def xpediteRecordAndLog : XpediteRecorder := fun buffer returnSite tsc =>
  xpediteExpandAndRecord surroundings buffer returnSite tsc

/-- The data is passed for the time stamp, cut down to 64 bits, and the time stamp for the data. -/
def xpediteRecordWithDataAndLog : XpediteDataProbeRecorder := fun buffer returnSite tsc data =>
  xpediteExpandAndRecordWithData surroundings buffer returnSite (UInt64.ofNat data.toNat)
    (BitVec.ofNat 128 tsc.toNat)

def xpediteRecord : XpediteRecorder := fun buffer returnSite tsc =>
  buffer.append fun memory this => some (construct memory this returnSite tsc)

def xpediteRecordWithData : XpediteDataProbeRecorder := fun buffer returnSite tsc data =>
  buffer.append fun memory this => some (constructWithData memory this returnSite tsc data)

def xpediteRecordPmc : XpediteRecorder := fun buffer returnSite tsc =>
  (buffer.expandIfFull surroundings).append fun memory this =>
    some (Framework.xpediteRecordPmc surroundings.pmu surroundings.rdpmc memory this returnSite tsc)

def xpediteRecordPmcWithData : XpediteDataProbeRecorder := fun buffer returnSite tsc data =>
  (buffer.expandIfFull surroundings).append fun memory this =>
    some (Framework.xpediteRecordPmcWithData surroundings.pmu surroundings.rdpmc memory this
      returnSite tsc data)

def xpediteRecordPerfEvents : XpediteRecorder := fun buffer returnSite tsc =>
  (buffer.expandIfFull surroundings).append fun memory this =>
    surroundings.perfEvents.map fun values => constructWithPmc memory this returnSite tsc values

def xpediteRecordPerfEventsWithData : XpediteDataProbeRecorder := fun buffer returnSite tsc data =>
  (buffer.expandIfFull surroundings).append fun memory this =>
    surroundings.perfEvents.map fun values =>
      constructWithDataAndPmc memory this returnSite tsc data values

end Recorders

namespace RecorderCtl

variable (surroundings : Surroundings)

def recorders : RecorderType → XpediteRecorder
  | .trivial => Recorders.xpediteRecord
  | .expandable => Recorders.xpediteExpandAndRecord surroundings
  | .pmc => Recorders.xpediteRecordPmc surroundings
  | .perfEvents => Recorders.xpediteRecordPerfEvents surroundings
  | .logging => Recorders.xpediteRecordAndLog surroundings
  | .custom => Recorders.xpediteExpandAndRecord surroundings

def dataRecorders : RecorderType → XpediteDataProbeRecorder
  | .trivial => Recorders.xpediteRecordWithData
  | .expandable => Recorders.xpediteExpandAndRecordWithData surroundings
  | .pmc => Recorders.xpediteRecordPmcWithData surroundings
  | .perfEvents => Recorders.xpediteRecordPerfEventsWithData surroundings
  | .logging => Recorders.xpediteRecordWithDataAndLog surroundings
  | .custom => Recorders.xpediteExpandAndRecordWithData surroundings

end RecorderCtl

structure Appends (before after : ThreadBuffer) (returnSite tsc : UInt64)
    (data : Option (BitVec 128)) : Prop where
  samplesBufferPtr : after.samplesBufferPtr = next after.memory before.samplesBufferPtr
  samplesBufferEnd : after.samplesBufferEnd = before.samplesBufferEnd
  earlier : ∀ place, place < before.samplesBufferPtr → after.memory place = before.memory place
  returnSite : (reading after.memory before.samplesBufferPtr).returnSite = returnSite
  tsc : (reading after.memory before.samplesBufferPtr).tsc = tsc
  data : (reading after.memory before.samplesBufferPtr).data =
    data.map fun data => (lowWord data, highWord data)

def Records (before : ThreadBuffer) (result : Option ThreadBuffer) (returnSite tsc : UInt64)
    (data : Option (BitVec 128)) : Prop :=
  ∃ after, result = some after ∧ Appends before after returnSite tsc data

def headBytes (word returnSite : UInt64) (data : Option (BitVec 128)) : List UInt8 :=
  wordBytes word ++ wordBytes returnSite ++ dataBytes data

/-- Memory that differs by a string of bytes at `this`, of which the first ones are given. -/
def StartsWith (before : Memory) (this : Nat) (bytes : List UInt8) (after : Memory) : Prop :=
  ∃ counters, after = before.write this (bytes ++ counters)

section Constructors

variable (memory : Memory) (this : Nat) (returnSite tsc : UInt64)

theorem construct_eq_head :
    construct memory this returnSite tsc =
      memory.write this (headBytes tsc returnSite none) := by
  rw [construct_eq_write, headBytes, dataBytes, List.append_nil]

theorem constructWithData_eq_head (data : BitVec 128) :
    constructWithData memory this returnSite tsc data =
      memory.write this (headBytes (tsc ||| flagData) returnSite (some data)) :=
  constructWithData_eq_write memory this returnSite tsc data

theorem write_startsWith (bytes : List UInt8) :
    StartsWith memory this bytes (memory.write this bytes) := by
  refine ⟨[], ?_⟩
  rw [List.append_nil]

theorem counters_startsWith {bytes : List UInt8} {address : Nat} (count : UInt64)
    (values : List UInt64) (behind : this + bytes.length = address) :
    StartsWith memory this bytes
      (readPmc ((memory.write this bytes).store64 address count) (address + 8) values) := by
  refine ⟨wordBytes count ++ values.flatMap wordBytes, ?_⟩
  have stored : (memory.write this bytes).store64 address count =
      (memory.write this bytes).write address (wordBytes count) := rfl
  rw [readPmc_eq_write, stored, Memory.write_append, Memory.write_append, behind,
    length_wordBytes]

theorem readPmc_startsWith (count : UInt64) (values : List UInt64) :
    StartsWith memory this (headBytes tsc returnSite none)
      (readPmc ((construct memory this returnSite tsc).store64 (this + 16) count) (this + 24)
        values) := by
  rw [construct_eq_head]
  refine counters_startsWith memory this count values ?_
  rw [headBytes, List.length_append, List.length_append, length_wordBytes, length_wordBytes,
    length_dataBytes]
  rfl

theorem readPmcWithData_startsWith (data : BitVec 128) (count : UInt64) (values : List UInt64) :
    StartsWith memory this (headBytes (tsc ||| flagData) returnSite (some data))
      (readPmc ((constructWithData memory this returnSite tsc data).store64 (this + 32) count)
        (this + 40) values) := by
  rw [constructWithData_eq_head]
  refine counters_startsWith memory this count values ?_
  rw [headBytes, List.length_append, List.length_append, length_wordBytes, length_wordBytes,
    length_dataBytes]
  rfl

end Constructors

namespace StartsWith

variable {before after : Memory} {this : Nat} {word returnSite : UInt64}
variable {data : Option (BitVec 128)}
variable (starts : StartsWith before this (headBytes word returnSite data) after)

include starts

theorem holds : after.Holds this (headBytes word returnSite data) := by
  obtain ⟨counters, rfl⟩ := starts
  exact ((Memory.holds_append _ _ _ _).mp (before.holds_write this _)).1

theorem earlier {place : Nat} (less : place < this) : after place = before place := by
  obtain ⟨counters, rfl⟩ := starts
  exact Memory.write_of_lt _ _ less

theorem tscWord_eq : tscWord after this = word := by
  have holds := starts.holds
  rw [headBytes, Memory.holds_append, Memory.holds_append] at holds
  exact Memory.Holds.load64 holds.1.1

theorem returnSite_eq : (reading after this).returnSite = returnSite := by
  have holds := starts.holds
  rw [headBytes, Memory.holds_append, Memory.holds_append, length_wordBytes] at holds
  exact Memory.Holds.load64 holds.1.2

theorem tsc_eq : (reading after this).tsc = word &&& tscMask := by
  rw [reading, tsc, starts.tscWord_eq]

theorem data_eq (marked : (word &&& flagData != 0) = data.isSome) :
    (reading after this).data = data.map fun data => (lowWord data, highWord data) := by
  have holds := starts.holds
  rw [headBytes, Memory.holds_append] at holds
  rw [reading, hasData, starts.tscWord_eq, marked]
  cases data with
  | none => rfl
  | some datum =>
      have words := holds.2
      rw [dataBytes, Memory.holds_append, List.length_append, length_wordBytes, length_wordBytes]
        at words
      have low : dataWord after this 0 = lowWord datum := Memory.Holds.load64 words.1
      have high : dataWord after this 1 = highWord datum := Memory.Holds.load64 words.2
      rw [Option.isSome_some, if_pos rfl, Samples.data, low, high, Option.map_some]

end StartsWith

theorem toNat_eq_words (data : BitVec 128) :
    data.toNat = (lowWord data).toNat + 2 ^ 64 * (highWord data).toNat := by
  have bound := data.isLt
  rw [lowWord, highWord, UInt64.toNat_ofNat', UInt64.toNat_ofNat']
  omega

theorem or_flagData_and_flagData (word : UInt64) :
    ((word ||| flagData) &&& flagData != 0) = true := by
  have set : flagData.toNat.testBit 62 = true := by decide
  rw [and_flag_ne_zero (show flagData.toNat = 2 ^ 62 by decide), UInt64.toNat_or,
    Nat.testBit_or, set, Bool.or_true]

section Room

variable {buffer : ThreadBuffer} (room : buffer.samplesBufferPtr < buffer.samplesBufferEnd)

include room

theorem expandIfFull_of_room (surroundings : Surroundings) :
    buffer.expandIfFull surroundings = buffer := by
  rw [ThreadBuffer.expandIfFull, if_neg (Nat.not_le.mpr room)]

theorem append_of_room (sample : Memory → Nat → Option Memory) :
    buffer.append sample =
      (sample buffer.memory buffer.samplesBufferPtr).map fun memory =>
        { buffer with
          memory := memory
          samplesBufferPtr := next memory buffer.samplesBufferPtr } := by
  rw [ThreadBuffer.append, if_pos room]

theorem records_append {sample : Memory → Nat → Option Memory} {placed : Memory} {kind : Nat}
    {returnSite : UInt64} {tsc : Tsc} {data : Option (BitVec 128)} (small : kind < 4)
    (marked : decide (kind % 2 = 1) = data.isSome)
    (constructed : sample buffer.memory buffer.samplesBufferPtr = some placed)
    (starts : StartsWith buffer.memory buffer.samplesBufferPtr
      (headBytes (flagged kind tsc.val) returnSite data) placed) :
    Records buffer (buffer.append sample) returnSite tsc.val data := by
  rw [append_of_room room, constructed, Option.map_some]
  refine ⟨_, rfl, rfl, rfl, fun place less => starts.earlier less, starts.returnSite_eq, ?_, ?_⟩
  · exact starts.tsc_eq.trans (flagged_and_tscMask small tsc)
  · exact starts.data_eq ((flagged_and_flagData small tsc).trans marked)

theorem not_records_append {sample : Memory → Nat → Option Memory} {returnSite tsc : UInt64}
    {data : Option (BitVec 128)}
    (failed : sample buffer.memory buffer.samplesBufferPtr = none) :
    ¬Records buffer (buffer.append sample) returnSite tsc data := by
  rw [append_of_room room, failed]
  rintro ⟨after, absent, -⟩
  cases absent

def CanCount (surroundings : Surroundings) (type : RecorderType) : Prop :=
  type = .perfEvents → surroundings.perfEvents.isSome = true

theorem recorders_record_iff (surroundings : Surroundings) (type : RecorderType)
    (returnSite : UInt64) (tsc : Tsc) :
    Records buffer (RecorderCtl.recorders surroundings type buffer returnSite tsc.val)
        returnSite tsc.val none ↔
      CanCount surroundings type := by
  have full := expandIfFull_of_room room surroundings
  have expandable : Records buffer
      (Recorders.xpediteExpandAndRecord surroundings buffer returnSite tsc.val) returnSite tsc.val
      none := by
    rw [Recorders.xpediteExpandAndRecord, full]
    refine records_append room (show 0 < 4 by decide) rfl rfl ?_
    rw [flagged_zero, construct_eq_head]
    exact write_startsWith _ _ _
  cases type with
  | trivial =>
      refine iff_of_true ?_ (fun different => by cases different)
      rw [RecorderCtl.recorders, Recorders.xpediteRecord]
      refine records_append room (show 0 < 4 by decide) rfl rfl ?_
      rw [flagged_zero, construct_eq_head]
      exact write_startsWith _ _ _
  | expandable => exact iff_of_true expandable (fun different => by cases different)
  | pmc =>
      refine iff_of_true ?_ (fun different => by cases different)
      rw [RecorderCtl.recorders, Recorders.xpediteRecordPmc, full]
      refine records_append room (show 2 < 4 by decide) rfl rfl ?_
      rw [flagged_two]
      exact readPmc_startsWith _ _ _ _ _ _
  | perfEvents =>
      rw [RecorderCtl.recorders, Recorders.xpediteRecordPerfEvents, full, CanCount]
      cases events : surroundings.perfEvents with
      | none => exact iff_of_false (not_records_append room rfl) (fun can => by cases can rfl)
      | some values =>
          refine iff_of_true ?_ (fun _ => rfl)
          refine records_append room (show 2 < 4 by decide) rfl rfl ?_
          rw [flagged_two]
          exact readPmc_startsWith _ _ _ _ _ _
  | logging => exact iff_of_true expandable (fun different => by cases different)
  | custom => exact iff_of_true expandable (fun different => by cases different)

/-- The swapped arguments do no harm exactly when they are one and the same number. -/
theorem xpediteRecordWithDataAndLog_records_iff (surroundings : Surroundings)
    (returnSite : UInt64) (tsc : Tsc) (data : BitVec 128) :
    Records buffer (Recorders.xpediteRecordWithDataAndLog surroundings buffer returnSite tsc.val data)
        returnSite tsc.val (some data) ↔
      data.toNat = tsc.val.toNat := by
  rw [Recorders.xpediteRecordWithDataAndLog, Recorders.xpediteExpandAndRecordWithData,
    expandIfFull_of_room room]
  constructor
  · rintro ⟨after, appended, appends⟩
    rw [append_of_room room, Option.map_some] at appended
    cases appended
    have starts := write_startsWith buffer.memory buffer.samplesBufferPtr
      (headBytes (UInt64.ofNat data.toNat ||| flagData) returnSite
        (some (BitVec.ofNat 128 tsc.val.toNat)))
    rw [← constructWithData_eq_head] at starts
    have read := appends.data
    rw [starts.data_eq (or_flagData_and_flagData _), Option.map_some, Option.map_some] at read
    have words := Prod.mk.inj (Option.some_inj.mp read)
    have bound := tsc.property
    rw [toNat_eq_words data, ← words.1, ← words.2, ← toNat_eq_words, BitVec.toNat_ofNat]
    omega
  · intro same
    have first : UInt64.ofNat data.toNat = tsc.val := by rw [same, UInt64.ofNat_toNat]
    have second : BitVec.ofNat 128 tsc.val.toNat = data := by
      rw [← same, BitVec.ofNat_toNat, BitVec.setWidth_eq]
    refine records_append room (show 1 < 4 by decide) rfl rfl ?_
    rw [flagged_one, first, second, constructWithData_eq_head]
    exact write_startsWith _ _ _

theorem dataRecorders_record_iff (surroundings : Surroundings) (type : RecorderType)
    (returnSite : UInt64) (tsc : Tsc) (data : BitVec 128) :
    Records buffer (RecorderCtl.dataRecorders surroundings type buffer returnSite tsc.val data)
        returnSite tsc.val (some data) ↔
      CanCount surroundings type ∧ (type = .logging → data.toNat = tsc.val.toNat) := by
  have full := expandIfFull_of_room room surroundings
  have always : ∀ {type : RecorderType}, type ≠ .perfEvents → type ≠ .logging →
      CanCount surroundings type ∧ (type = .logging → data.toNat = tsc.val.toNat) :=
    fun events logging => ⟨fun same => absurd same events, fun same => absurd same logging⟩
  have expandable : Records buffer
      (Recorders.xpediteExpandAndRecordWithData surroundings buffer returnSite tsc.val data)
      returnSite tsc.val (some data) := by
    rw [Recorders.xpediteExpandAndRecordWithData, full]
    refine records_append room (show 1 < 4 by decide) rfl rfl ?_
    rw [flagged_one, constructWithData_eq_head]
    exact write_startsWith _ _ _
  cases type with
  | trivial =>
      refine iff_of_true ?_ (always (by decide) (by decide))
      rw [RecorderCtl.dataRecorders, Recorders.xpediteRecordWithData]
      refine records_append room (show 1 < 4 by decide) rfl rfl ?_
      rw [flagged_one, constructWithData_eq_head]
      exact write_startsWith _ _ _
  | expandable =>
      exact iff_of_true expandable (always (by decide) (by decide))
  | pmc =>
      refine iff_of_true ?_ (always (by decide) (by decide))
      rw [RecorderCtl.dataRecorders, Recorders.xpediteRecordPmcWithData, full]
      refine records_append room (show 3 < 4 by decide) rfl rfl ?_
      rw [flagged_three]
      exact readPmcWithData_startsWith _ _ _ _ _ _ _
  | perfEvents =>
      rw [RecorderCtl.dataRecorders, Recorders.xpediteRecordPerfEventsWithData, full, CanCount]
      cases events : surroundings.perfEvents with
      | none =>
          exact iff_of_false (not_records_append room rfl) (fun can => by cases can.1 rfl)
      | some values =>
          refine iff_of_true ?_ ⟨fun _ => rfl, fun different => absurd different (by decide)⟩
          refine records_append room (show 3 < 4 by decide) rfl rfl ?_
          rw [flagged_three]
          exact readPmcWithData_startsWith _ _ _ _ _ _ _
  | logging =>
      rw [RecorderCtl.dataRecorders, xpediteRecordWithDataAndLog_records_iff room]
      constructor
      · intro same
        exact ⟨fun different => absurd different (by decide), fun _ => same⟩
      · intro both
        exact both.2 rfl
  | custom =>
      exact iff_of_true expandable (always (by decide) (by decide))

/--
Both recorders of a type record the event they are called for exactly when there is a set of
events to count, and the data is the time stamp where the logging recorder mixes them up.
-/
theorem recorders_agree_iff (surroundings : Surroundings) (type : RecorderType)
    (returnSite : UInt64) (tsc : Tsc) (data : BitVec 128) :
    (Records buffer (RecorderCtl.recorders surroundings type buffer returnSite tsc.val)
          returnSite tsc.val none ∧
        Records buffer (RecorderCtl.dataRecorders surroundings type buffer returnSite tsc.val data)
          returnSite tsc.val (some data)) ↔
      CanCount surroundings type ∧ (type = .logging → data.toNat = tsc.val.toNat) := by
  rw [recorders_record_iff room, dataRecorders_record_iff room]
  exact and_iff_right_of_imp And.left

end Room

def idle : Surroundings where
  expand := id
  pmu := PmuCtl.new
  rdpmc := fun _ => 0
  perfEvents := none

def emptyBuffer : ThreadBuffer where
  memory := fun _ => 0
  samplesBufferPtr := 4096
  samplesBufferEnd := 8192

theorem recorders_agree_expandable :
    Records emptyBuffer (RecorderCtl.recorders idle .expandable emptyBuffer 0x400000 77)
        0x400000 77 none ∧
      Records emptyBuffer (RecorderCtl.dataRecorders idle .expandable emptyBuffer 0x400000 77 5)
        0x400000 77 (some 5) :=
  (@recorders_agree_iff emptyBuffer (by decide) idle .expandable 0x400000 ⟨77, by decide⟩ 5).mpr
    ⟨fun events => absurd events (by decide), fun logging => absurd logging (by decide)⟩

/-- The sample says that the time is 5 and the data 77. -/
theorem xpediteRecordWithDataAndLog_swaps :
    ∃ after, RecorderCtl.dataRecorders idle .logging emptyBuffer 0x400000 77 5 = some after ∧
      reading after.memory emptyBuffer.samplesBufferPtr = ⟨0x400000, 5, some (77, 0), none⟩ ∧
      ¬Records emptyBuffer (RecorderCtl.dataRecorders idle .logging emptyBuffer 0x400000 77 5)
        0x400000 77 (some 5) := by
  refine ⟨_, rfl, by decide, ?_⟩
  rintro ⟨after, appended, appends⟩
  cases appended
  exact absurd appends.tsc (by decide)

end Xpedite.Framework
