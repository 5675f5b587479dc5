import Xpedite.Lib.Memory

/-!
Patching the call site of a probe: `CallSite.H`, `Probe::activate`, `Probe::deactivate` and
what they use of `AddressSpace`.
-/

namespace Xpedite.Probes.Patching

open Xpedite.Lib

def callSiteLen : Nat := 5
def opcodeJmp : UInt8 := 0xE9
def fiveByteNop : List UInt8 := [0x0F, 0x1F, 0x44, 0x00, 0x00]

structure Instructions where
  quadWord : UInt64

namespace Instructions

def bytes (instructions : Instructions) : List UInt8 := bytesOf 8 instructions.quadWord.toNat

def ofBytes (bytes : List UInt8) : Instructions := ⟨UInt64.ofNat (numberOf bytes)⟩

def memcpy (instructions : Instructions) (place : Nat) (source : List UInt8) : Instructions :=
  ofBytes (instructions.bytes.take place ++ source ++
    instructions.bytes.drop (place + source.length))

end Instructions

def offset (callSite trampoline : UInt64) : UInt32 :=
  (trampoline - callSite - UInt64.ofNat callSiteLen).toUInt32

structure Segment where
  start : UInt64
  stop : UInt64
  isPatchable : Bool

/--
The segments after a call site was located in one that is patchable, or that `mprotect`
makes so.
-/
def locateSegment (address : UInt64) (mprotect : Bool) : List Segment → Option (List Segment)
  | [] => none
  | segment :: segments =>
      if segment.start ≤ address ∧ address < segment.stop then
        if segment.isPatchable then some (segment :: segments)
        else if mprotect then some ({ segment with isPatchable := true } :: segments)
        else none
      else (locateSegment address mprotect segments).map (segment :: ·)

structure Process where
  memory : Memory
  segments : List Segment

structure Probe where
  callSite : UInt64
  trampoline : UInt64
  attr : UInt32

namespace Probe

def isActive (probe : Probe) : Bool := probe.attr &&& 1 ≠ 0
def markActive (probe : Probe) : Probe := { probe with attr := probe.attr ||| 1 }
def markInActive (probe : Probe) : Probe := { probe with attr := probe.attr &&& ~~~1 }

def activateCallSite (probe : Probe) (memory : Memory) : Memory :=
  let instructions : Instructions := ⟨memory.load64 probe.callSite.toNat⟩
  let instructions := instructions.memcpy 0 [opcodeJmp]
  let jmpOffset := offset probe.callSite probe.trampoline
  let instructions := instructions.memcpy 1 (bytesOf 4 jmpOffset.toNat)
  memory.store64 probe.callSite.toNat instructions.quadWord

def deactivateCallSite (probe : Probe) (memory : Memory) : Memory :=
  let instructions : Instructions := ⟨memory.load64 probe.callSite.toNat⟩
  let instructions := instructions.memcpy 0 fiveByteNop
  memory.store64 probe.callSite.toNat instructions.quadWord

def activate (probe : Probe) (process : Process) (mprotect : Bool) : (Probe × Process) × Bool :=
  match locateSegment probe.callSite mprotect process.segments with
  | some segments =>
      ((probe.markActive, ⟨probe.activateCallSite process.memory, segments⟩), true)
  | none => ((probe, process), false)

def deactivate (probe : Probe) (process : Process) (mprotect : Bool) : (Probe × Process) × Bool :=
  match locateSegment probe.callSite mprotect process.segments with
  | some segments =>
      ((probe.markInActive, ⟨probe.deactivateCallSite process.memory, segments⟩), true)
  | none => ((probe, process), false)

end Probe

inductive Patch where
  | activate
  | deactivate
  deriving DecidableEq

/-- A call, and what `mprotect` returns should the call come to it. -/
structure Call where
  patch : Patch
  mprotect : Bool

def Call.run (call : Call) (state : Probe × Process) : (Probe × Process) × Bool :=
  match call.patch with
  | .activate => state.1.activate state.2 call.mprotect
  | .deactivate => state.1.deactivate state.2 call.mprotect

def runCalls (calls : List Call) (state : Probe × Process) : Probe × Process :=
  calls.foldl (fun state call => (call.run state).1) state

def performed : List Call → Probe × Process → List Patch
  | [], _ => []
  | call :: calls, state =>
      if (call.run state).2 then call.patch :: performed calls (call.run state).1
      else performed calls (call.run state).1

def signExtended (displacement : UInt32) : UInt64 := ⟨displacement.toBitVec.signExtend 64⟩

/-- Where the processor goes on from a jump with a displacement of 32 bits. -/
def jumpTarget (memory : Memory) (address : UInt64) : Option UInt64 :=
  if memory address.toNat = opcodeJmp then
    let displacement := UInt32.ofNat (memory.load (address.toNat + 1) 4)
    some (address + UInt64.ofNat callSiteLen + signExtended displacement)
  else none

section Attributes

theorem or_one_and_one (attr : UInt32) : (attr ||| 1) &&& 1 = 1 := by
  have bits : (attr.toBitVec ||| 1#32) &&& 1#32 = 1#32 := by
    ext index
    simp
    grind
  exact UInt32.toBitVec_inj.mp bits

theorem and_not_one_and_one (attr : UInt32) : (attr &&& ~~~1) &&& 1 = 0 := by
  have clear : ~~~(1 : UInt32) &&& 1 = 0 := by decide
  rw [UInt32.and_assoc, clear, UInt32.and_zero]

theorem Probe.isActive_markActive (probe : Probe) : probe.markActive.isActive = true := by
  simp [isActive, markActive, or_one_and_one]

theorem Probe.isActive_markInActive (probe : Probe) : probe.markInActive.isActive = false := by
  simp [isActive, markInActive, and_not_one_and_one]

end Attributes

section Bytes

theorem Instructions.bytes_ofBytes {bytes : List UInt8} (eight : bytes.length = 8) :
    (Instructions.ofBytes bytes).bytes = bytes := by
  have small : numberOf bytes < 2 ^ 64 := by
    have bound := numberOf_lt bytes
    rw [eight] at bound
    exact bound
  rw [Instructions.bytes, Instructions.ofBytes, UInt64.toNat_ofNat', Nat.mod_eq_of_lt small, ← eight]
  exact bytesOf_numberOf bytes

theorem Instructions.bytes_memcpy (instructions : Instructions) {place : Nat} {source : List UInt8}
    (within : place + source.length ≤ 8) :
    (instructions.memcpy place source).bytes =
      instructions.bytes.take place ++ source ++ instructions.bytes.drop (place + source.length) := by
  have eight : instructions.bytes.length = 8 := length_bytesOf 8 _
  apply bytes_ofBytes
  rw [List.length_append, List.length_append, List.length_take, List.length_drop, eight]
  omega

theorem Instructions.load64_of_holds {memory : Memory} {address : Nat} {bytes : List UInt8}
    (holds : memory.Holds address bytes) (eight : bytes.length = 8) :
    memory.load64 address = (Instructions.ofBytes bytes).quadWord := by
  rw [Memory.Holds, eight] at holds
  rw [Memory.load64, Memory.load, holds]
  rfl

theorem Instructions.bytes_load64 {memory : Memory} {address : Nat} {bytes : List UInt8}
    (holds : memory.Holds address bytes) (eight : bytes.length = 8) :
    (Instructions.mk (memory.load64 address)).bytes = bytes := by
  rw [load64_of_holds holds eight]
  exact bytes_ofBytes eight

theorem Instructions.holds_store64 (memory : Memory) (address : Nat) (instructions : Instructions) :
    (memory.store64 address instructions.quadWord).Holds address instructions.bytes :=
  memory.holds_store address 8 instructions.quadWord.toNat

variable {memory : Memory} {probe : Probe} {front tail : List UInt8}

theorem Probe.holds_activateCallSite (five : front.length = 5) (three : tail.length = 3)
    (holds : memory.Holds probe.callSite.toNat (front ++ tail)) :
    (probe.activateCallSite memory).Holds probe.callSite.toNat
      (opcodeJmp :: bytesOf 4 (offset probe.callSite probe.trampoline).toNat ++ tail) := by
  have eight : (front ++ tail).length = 8 := by rw [List.length_append, five, three]
  have stored := Instructions.holds_store64 memory probe.callSite.toNat
    (((Instructions.mk (memory.load64 probe.callSite.toNat)).memcpy 0 [opcodeJmp]).memcpy 1
      (bytesOf 4 (offset probe.callSite probe.trampoline).toNat))
  rw [Instructions.bytes_memcpy _ (by rw [length_bytesOf]; omega), Instructions.bytes_memcpy _ (by decide),
    Instructions.bytes_load64 holds eight] at stored
  have rest : (front ++ tail).drop 5 = tail := by rw [← five, List.drop_left]
  simpa [Probe.activateCallSite, rest] using stored

theorem Probe.holds_deactivateCallSite (five : front.length = 5) (three : tail.length = 3)
    (holds : memory.Holds probe.callSite.toNat (front ++ tail)) :
    (probe.deactivateCallSite memory).Holds probe.callSite.toNat (fiveByteNop ++ tail) := by
  have eight : (front ++ tail).length = 8 := by rw [List.length_append, five, three]
  have stored := Instructions.holds_store64 memory probe.callSite.toNat
    ((Instructions.mk (memory.load64 probe.callSite.toNat)).memcpy 0 fiveByteNop)
  rw [Instructions.bytes_memcpy _ (by decide), Instructions.bytes_load64 holds eight] at stored
  have rest : (front ++ tail).drop 5 = tail := by rw [← five, List.drop_left]
  simpa [Probe.deactivateCallSite, fiveByteNop, rest] using stored

theorem Probe.activateCallSite_outside (probe : Probe) (memory : Memory) {place : Nat}
    (apart : place < probe.callSite.toNat ∨ probe.callSite.toNat + 8 ≤ place) :
    probe.activateCallSite memory place = memory place :=
  memory.store_outside 8 _ apart

theorem Probe.deactivateCallSite_outside (probe : Probe) (memory : Memory) {place : Nat}
    (apart : place < probe.callSite.toNat ∨ probe.callSite.toNat + 8 ≤ place) :
    probe.deactivateCallSite memory place = memory place :=
  memory.store_outside 8 _ apart

end Bytes

section Jump

theorem toNat_offset (callSite trampoline : UInt64) : (offset callSite trampoline).toNat =
    (trampoline.toNat + 2 * 2 ^ 64 - callSite.toNat - 5) % 2 ^ 64 % 2 ^ 32 := by
  have site := callSite.toNat_lt
  have five : (UInt64.ofNat callSiteLen).toNat = 5 := rfl
  rw [offset, UInt64.toNat_toUInt32, UInt64.toNat_sub, UInt64.toNat_sub, five]
  omega

theorem toNat_signExtended (displacement : UInt32) : (signExtended displacement).toNat =
    displacement.toNat + if 2 ^ 31 ≤ displacement.toNat then 2 ^ 64 - 2 ^ 32 else 0 := by
  have small := displacement.toNat_lt
  have wide : displacement.toNat % 2 ^ 64 = displacement.toNat := Nat.mod_eq_of_lt (by omega)
  change (displacement.toBitVec.signExtend 64).toNat = _
  rw [BitVec.toNat_signExtend, BitVec.toNat_setWidth, BitVec.msb_eq_decide, UInt32.toNat_toBitVec,
    wide]
  simp only [decide_eq_true_eq]

/-- The displacement leads to the trampoline, where it is within reach of 32 bits with sign. -/
theorem add_signExtended_offset {callSite trampoline : UInt64}
    (above : -2 ^ 31 ≤ (trampoline.toNat : Int) - (callSite.toNat + 5))
    (below : (trampoline.toNat : Int) - (callSite.toNat + 5) < 2 ^ 31) :
    callSite + UInt64.ofNat callSiteLen + signExtended (offset callSite trampoline) =
      trampoline := by
  have site := callSite.toNat_lt
  have destination := trampoline.toNat_lt
  have five : (UInt64.ofNat callSiteLen).toNat = 5 := rfl
  have displacement := toNat_offset callSite trampoline
  apply UInt64.toNat_inj.mp
  rw [UInt64.toNat_add, UInt64.toNat_add, five, toNat_signExtended]
  split
  case isTrue negative => omega
  case isFalse positive => omega

theorem jumpTarget_of_holds {memory : Memory} {address : UInt64} {displacement : UInt32}
    {tail : List UInt8}
    (holds : memory.Holds address.toNat (opcodeJmp :: bytesOf 4 displacement.toNat ++ tail)) :
    jumpTarget memory address =
      some (address + UInt64.ofNat callSiteLen + signExtended displacement) := by
  rw [List.cons_append, Memory.holds_cons, Memory.holds_append] at holds
  obtain ⟨opcode, operand, -⟩ := holds
  rw [jumpTarget, if_pos opcode, operand.load displacement.toNat_lt, UInt32.ofNat_toNat]

end Jump

section Calls

def Probe.code (probe : Probe) : Patch → List UInt8
  | .activate => opcodeJmp :: bytesOf 4 (offset probe.callSite probe.trampoline).toNat
  | .deactivate => fiveByteNop

theorem Probe.length_code (probe : Probe) (patch : Patch) : (probe.code patch).length = 5 := by
  cases patch with
  | activate => rw [code, List.length_cons, length_bytesOf]
  | deactivate => rfl

structure Patched (first : Probe × Process) (tail : List UInt8) (patch : Patch)
    (state : Probe × Process) : Prop where
  callSite : state.1.callSite = first.1.callSite
  trampoline : state.1.trampoline = first.1.trampoline
  holds : state.2.memory.Holds first.1.callSite.toNat (first.1.code patch ++ tail)
  elsewhere : ∀ place, place < first.1.callSite.toNat ∨ first.1.callSite.toNat + 8 ≤ place →
    state.2.memory place = first.2.memory place

variable {first state : Probe × Process} {tail : List UInt8} {patch : Patch}

theorem Patched.activate (patched : Patched first tail patch state) (three : tail.length = 3)
    (segments : List Segment) :
    Patched first tail .activate
      (state.1.markActive, ⟨state.1.activateCallSite state.2.memory, segments⟩) := by
  have holds := patched.holds
  rw [← patched.callSite] at holds
  have written := Probe.holds_activateCallSite (first.1.length_code patch) three holds
  rw [patched.callSite, patched.trampoline] at written
  refine ⟨patched.callSite, patched.trampoline, written, ?_⟩
  intro place apart
  rw [← patched.elsewhere place apart]
  rw [← patched.callSite] at apart
  exact state.1.activateCallSite_outside state.2.memory apart

theorem Patched.deactivate (patched : Patched first tail patch state) (three : tail.length = 3)
    (segments : List Segment) :
    Patched first tail .deactivate
      (state.1.markInActive, ⟨state.1.deactivateCallSite state.2.memory, segments⟩) := by
  have holds := patched.holds
  rw [← patched.callSite] at holds
  have written := Probe.holds_deactivateCallSite (first.1.length_code patch) three holds
  rw [patched.callSite] at written
  refine ⟨patched.callSite, patched.trampoline, written, ?_⟩
  intro place apart
  rw [← patched.elsewhere place apart]
  rw [← patched.callSite] at apart
  exact state.1.deactivateCallSite_outside state.2.memory apart

theorem Call.run_cases (call : Call) (state : Probe × Process) :
    call.run state = (state, false) ∨
      ∃ segments, locateSegment state.1.callSite call.mprotect state.2.segments = some segments ∧
        call.run state = (match call.patch with
          | .activate => (state.1.markActive, ⟨state.1.activateCallSite state.2.memory, segments⟩)
          | .deactivate =>
              (state.1.markInActive, ⟨state.1.deactivateCallSite state.2.memory, segments⟩), true) := by
  obtain ⟨patch, mprotect⟩ := call
  cases located : locateSegment state.1.callSite mprotect state.2.segments with
  | none =>
      left
      cases patch with
      | activate => simp only [run, Probe.activate, located]
      | deactivate => simp only [run, Probe.deactivate, located]
  | some segments =>
      refine .inr ⟨segments, rfl, ?_⟩
      cases patch with
      | activate => simp only [run, Probe.activate, located]
      | deactivate => simp only [run, Probe.deactivate, located]

theorem Patched.run (patched : Patched first tail patch state) (three : tail.length = 3)
    (call : Call) :
    Patched first tail (if (call.run state).2 then call.patch else patch) (call.run state).1 := by
  rcases call.run_cases state with refused | ⟨segments, -, done⟩
  · rw [refused]
    exact patched
  · rw [done]
    obtain ⟨patch, mprotect⟩ := call
    cases patch with
    | activate => exact patched.activate three segments
    | deactivate => exact patched.deactivate three segments

theorem Patched.runCalls (patched : Patched first tail patch state) (three : tail.length = 3)
    (calls : List Call) :
    Patched first tail ((performed calls state).getLastD patch) (runCalls calls state) := by
  induction calls generalizing state patch with
  | nil => exact patched
  | cons call calls ih =>
      have next := ih (patched.run three call)
      rw [performed]
      split
      case isTrue done =>
          rw [List.getLastD_cons]
          rwa [if_pos done] at next
      case isFalse refused => rwa [if_neg refused] at next

/--
Only the calls that find a segment which is or can be made writable count.  After them the
call site is the original one, or a jump to the trampoline where the last of them activated
the probe; the three bytes behind are kept.
-/
theorem patching_reversible (probe : Probe) (process : Process) (tail : List UInt8)
    (three : tail.length = 3)
    (unpatched : process.memory.Holds probe.callSite.toNat (fiveByteNop ++ tail))
    (above : -2 ^ 31 ≤ (probe.trampoline.toNat : Int) - (probe.callSite.toNat + 5))
    (below : (probe.trampoline.toNat : Int) - (probe.callSite.toNat + 5) < 2 ^ 31)
    (calls : List Call) :
    let patched := (runCalls calls (probe, process)).2.memory
    let last := (performed calls (probe, process)).getLast?
    (last ≠ some .activate →
        patched.load64 probe.callSite.toNat = process.memory.load64 probe.callSite.toNat) ∧
      (last = some .activate → jumpTarget patched probe.callSite = some probe.trampoline) ∧
      patched.Holds (probe.callSite.toNat + 5) tail := by
  intro patched last
  have start : Patched (probe, process) tail .deactivate (probe, process) :=
    ⟨rfl, rfl, unpatched, fun _ _ => rfl⟩
  have invariant := (start.runCalls three calls).holds
  rw [List.getLastD_eq_getLast?] at invariant
  change patched.Holds probe.callSite.toNat (probe.code (last.getD .deactivate) ++ tail) at invariant
  refine ⟨?_, ?_, ?_⟩
  · intro inactive
    have original : last.getD .deactivate = .deactivate := by
      cases found : last with
      | none => rfl
      | some patch =>
          cases patch with
          | activate => exact absurd found inactive
          | deactivate => rfl
    rw [original] at invariant
    have eight : (fiveByteNop ++ tail).length = 8 := by rw [List.length_append, three]; rfl
    rw [Instructions.load64_of_holds invariant eight, Instructions.load64_of_holds unpatched eight]
    rfl
  · intro active
    rw [active] at invariant
    rw [jumpTarget_of_holds invariant, add_signExtended_offset above below]
  · rw [Memory.holds_append, probe.length_code] at invariant
    exact invariant.2

def sampleProbe : Probe := ⟨0x401000, 0x400100, 0⟩

def sampleProcess : Process where
  memory := Memory.write (fun _ => 0) 0x401000 (fiveByteNop ++ [0xC3, 0x90, 0x90])
  segments := [⟨0x400000, 0x402000, false⟩]

/-- The trampoline lies before the call site. -/
theorem patching_reversible_twice :
    let calls : List Call := [⟨.activate, true⟩, ⟨.deactivate, false⟩, ⟨.activate, false⟩]
    let patched := (runCalls calls (sampleProbe, sampleProcess)).2.memory
    let last := (performed calls (sampleProbe, sampleProcess)).getLast?
    (last ≠ some .activate →
        patched.load64 0x401000 = sampleProcess.memory.load64 0x401000) ∧
      (last = some .activate → jumpTarget patched 0x401000 = some 0x400100) ∧
      patched.Holds 0x401005 [0xC3, 0x90, 0x90] :=
  patching_reversible sampleProbe sampleProcess [0xC3, 0x90, 0x90] rfl
    (Memory.holds_write _ _ _) (by decide) (by decide)
    [⟨.activate, true⟩, ⟨.deactivate, false⟩, ⟨.activate, false⟩]

/-- Where the pages cannot be made writable, an activation leaves the NOP. -/
theorem activate_unpatchable :
    sampleProcess.memory.Holds 0x401000 (fiveByteNop ++ [0xC3, 0x90, 0x90]) ∧
      jumpTarget (runCalls [⟨.activate, false⟩] (sampleProbe, sampleProcess)).2.memory 0x401000 =
        none :=
  ⟨Memory.holds_write _ _ _, by decide⟩

end Calls

end Xpedite.Probes.Patching
