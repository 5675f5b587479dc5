import Mathlib.Logic.Function.Basic
import Xpedite.Framework.EventSelect
import Xpedite.Lib.Attempts

/-!
Programming of the counters of a cpu by the kernel module (`PMUArch.c` and `PCECtl.c` of
`ko/lib/xpedite/pmu`, with the addresses of `PMUArch.h`).  Which calls of `wrmsr` fail is told
by the number of calls before, the register and the value.
-/

namespace Xpedite.Kernel

open Xpedite.Lib

def pebsEnable : Nat := 0x3F1

def perfGlobalCtrl : Nat := 0x38F

def fixedCtrCtrl : Nat := 0x38D

def fixedCtr0 : Nat := 0x309

def fixedCtr1 : Nat := 0x30A

def fixedCtr2 : Nat := 0x30B

def perfEvtSel0 : Nat := 0x186

def pmc0 : Nat := 0xC1

def offcoreRsp0 : Nat := 0x1A6

def gpEventMax : Nat := 8

def offcoreEventMax : Nat := 2

structure EventSet where
  fixedEvtGlobalCtl : UInt8
  fixedEvtSel : UInt32
  gpEvtSel : List UInt32
  offcoreEvtSel : List UInt64

inductive Action where
  | wrmsr (msr : Nat) (value : UInt64) (failed : Bool)
  | enablePCE
  | clearPCE
  deriving DecidableEq

/-- `history` has what was done on the cpu, latest first. -/
structure Cpu where
  registers : Nat → UInt64
  cr4 : UInt64
  history : List Action

def pceBit : UInt64 := (1 : UInt64) <<< 8

def Cpu.pce (cpu : Cpu) : Bool := cpu.cr4 &&& pceBit != 0

def enablePCE (cpu : Cpu) : Cpu :=
  { cpu with cr4 := cpu.cr4 ||| pceBit, history := .enablePCE :: cpu.history }

def clearPCE (cpu : Cpu) : Cpu :=
  { cpu with cr4 := cpu.cr4 &&& ~~~pceBit, history := .clearPCE :: cpu.history }

abbrev Failures := Nat → Nat → UInt64 → Bool

section Registers

variable (fails : Failures)

/-- A register that cannot be written keeps its value. -/
def store (write : Nat × UInt64) (cpu : Cpu) : Outcome Cpu :=
  let (msr, value) := write
  if fails cpu.history.length msr value then
    ⟨true, { cpu with history := .wrmsr msr value true :: cpu.history }⟩
  else
    ⟨false, { cpu with
      registers := Function.update cpu.registers msr value
      history := .wrmsr msr value false :: cpu.history }⟩

def joined (low high : UInt32) : UInt64 := (high.toUInt64 <<< 32) ||| low.toUInt64

def wrmsrSafe (msr : Nat) (low high : UInt32) : Cpu → Outcome Cpu := store fails (msr, joined low high)

def resetGlobalCtl : Cpu → Outcome Cpu := wrmsrSafe fails perfGlobalCtrl 0 0

def resetPEBSEnable : Cpu → Outcome Cpu := wrmsrSafe fails pebsEnable 0 0

def resetFixedCounters (cpu : Cpu) : Outcome Cpu :=
  (((wrmsrSafe fails fixedCtrCtrl 0 0 cpu).ifOk (wrmsrSafe fails fixedCtr0 0 0)).ifOk
    (wrmsrSafe fails fixedCtr1 0 0)).ifOk (wrmsrSafe fails fixedCtr2 0 0)

def resetGpCounters (gpEvtCount : Nat) : Cpu → Outcome Cpu :=
  attemptAll (fun i cpu =>
    (wrmsrSafe fails (perfEvtSel0 + i) 0 0 cpu).ifOk (wrmsrSafe fails (pmc0 + i) 0 0))
    (List.range gpEvtCount)

def resetOffcoreCounters : Cpu → Outcome Cpu :=
  attemptAll (fun i => wrmsrSafe fails (offcoreRsp0 + i) 0 0) (List.range offcoreEventMax)

def enableFixedCtrCtl (eventSet : EventSet) : Cpu → Outcome Cpu :=
  wrmsrSafe fails fixedCtrCtrl eventSet.fixedEvtSel 0

def enableGpCounters (eventSet : EventSet) : Cpu → Outcome Cpu :=
  attemptAll (fun (evtSel, i) => wrmsrSafe fails (perfEvtSel0 + i) evtSel 0) eventSet.gpEvtSel.zipIdx

def enableOffcoreCounters (eventSet : EventSet) : Cpu → Outcome Cpu :=
  attemptAll (fun (evtSel, i) =>
    wrmsrSafe fails (offcoreRsp0 + i) evtSel.toUInt32 (evtSel >>> 32).toUInt32)
    eventSet.offcoreEvtSel.zipIdx

def enableGlobalCtl (low high : UInt32) : Cpu → Outcome Cpu := wrmsrSafe fails perfGlobalCtrl low high

def pmuClearEventSet (gpEvtCount : Nat) (cpu : Cpu) : Outcome Cpu :=
  ((((resetGlobalCtl fails cpu).ifOk (resetPEBSEnable fails)).ifOk (resetFixedCounters fails)).ifOk
    (resetGpCounters fails gpEvtCount)).ifOk (resetOffcoreCounters fails)

/-- `err` is what is returned and stored in `_err`. -/
def pmuEnableEventSet (eventSet : EventSet) (cpu : Cpu) : Outcome Cpu :=
  let gpEvtCount := eventSet.gpEvtSel.length
  if gpEventMax < gpEvtCount then ⟨true, cpu⟩
  else
    let cleared := pmuClearEventSet fails gpEvtCount cpu
    if cleared.err then cleared
    else
      let low := UInt32.ofNat (2 ^ gpEvtCount - 1)
      let high := eventSet.fixedEvtGlobalCtl.toUInt32
      let enabled := (((enableGpCounters fails eventSet cleared.state).ifOk
        (enableOffcoreCounters fails eventSet)).ifOk (enableFixedCtrCtl fails eventSet)).ifOk
        (enableGlobalCtl fails low high)
      if enabled.err then ⟨true, (pmuClearEventSet fails gpEvtCount enabled.state).state⟩
      else enabled

end Registers

end Xpedite.Kernel
