import Xpedite.Kernel.PmuArchCore

/-!
The device of the kernel module (`ko/lib/xpedite/pmu/PMUDevice.c`): one user at a time opens it,
writes requests and releases it.  Log messages are left out.
-/

namespace Xpedite.Kernel

open Xpedite.Lib
open Xpedite.Framework (PMUCtlRequest FixedPmcSet)

/-- The members of the unions of `EventSelect.h` that are written to registers. -/
def wordsOf (eventSet : Framework.EventSet) : EventSet where
  fixedEvtGlobalCtl := UInt8.ofNat (eventSet.fixedEvtGlobalCtl.instRetiredAny.toNat +
    eventSet.fixedEvtGlobalCtl.cpuClkUnhaltedCore.toNat * 2 +
    eventSet.fixedEvtGlobalCtl.cpuClkUnhaltedRef.toNat * 2 ^ 2)
  fixedEvtSel := UInt32.ofNat (eventSet.fixedEvtSel 0 + eventSet.fixedEvtSel 1 * 2 ^ 4 +
    eventSet.fixedEvtSel 2 * 2 ^ 8)
  gpEvtSel := eventSet.gpEvtSel.map fun reg => UInt32.ofNat reg.value
  offcoreEvtSel := eventSet.offcoreEvtSel

def buildEventSet (request : PMUCtlRequest) : Option EventSet :=
  (Framework.buildEventSet request).map wordsOf

def sizeofRequest : Nat := 93

def enxio : Int := 6

def efault : Int := 14

def ebusy : Int := 16

structure Driver where
  mutexLocked : Bool
  activeCpuSet : Nat → Bool
  gpEvtCount : UInt8
  cpus : Nat → Cpu

/-- A write from user space with what the kernel answers: the request as far as it can be copied,
the cpus online, and if a call to the cpu gets there. -/
structure Write where
  len : Nat
  request : Option PMUCtlRequest
  online : Nat → Bool
  called : Bool

section Device

variable (nrCpuIds : Nat) (fails : Nat → Failures)

def pmuOpen (driver : Driver) : Int × Driver :=
  if driver.mutexLocked then (-ebusy, driver)
  else (0, { driver with mutexLocked := true, gpEvtCount := 0, activeCpuSet := fun _ => false })

/-- `__pmuEnableEventSet` on a cpu, with the error it leaves in the event set. -/
def enableEventSetOn (eventSet : EventSet) (cpuId : Nat) (driver : Driver) : Bool × Driver :=
  let outcome := pmuEnableEventSet (fails cpuId) eventSet (enablePCE (driver.cpus cpuId))
  (outcome.err, { driver with cpus := Function.update driver.cpus cpuId outcome.state })

def clearEventSetOn (cpuId : Nat) (driver : Driver) : Driver :=
  let outcome := pmuClearEventSet (fails cpuId) driver.gpEvtCount.toNat (clearPCE (driver.cpus cpuId))
  { driver with cpus := Function.update driver.cpus cpuId outcome.state }

def processRequest (online : Nat → Bool) (called : Bool) (request : PMUCtlRequest) (driver : Driver) :
    Int × Driver :=
  let cpuId := request.cpu.toNat
  if nrCpuIds ≤ cpuId || !online cpuId then (-enxio, driver)
  else
    match buildEventSet request with
    | none => (-efault, driver)
    | some eventSet =>
        if !called then (-efault, driver)
        else
          let (err, driver) := enableEventSetOn fails eventSet cpuId driver
          if err then (-efault, driver)
          else (sizeofRequest, { driver with
            gpEvtCount :=
              if driver.gpEvtCount < request.gpEvtCount then request.gpEvtCount
              else driver.gpEvtCount
            activeCpuSet := Function.update driver.activeCpuSet cpuId true })

def pmuWrite (write : Write) (driver : Driver) : Int × Driver :=
  if write.len ≠ sizeofRequest then (-efault, driver)
  else
    match write.request with
    | none => (-efault, driver)
    | some request => processRequest nrCpuIds fails write.online write.called request driver

/-- `called` tells which calls to other cpus get there. -/
def pmuRelease (called : Nat → Bool) (driver : Driver) : Int × Driver :=
  let driver := ((List.range nrCpuIds).filter driver.activeCpuSet).foldl (fun driver cpuId =>
    if called cpuId then clearEventSetOn fails cpuId driver else driver) driver
  (0, { driver with gpEvtCount := 0, activeCpuSet := fun _ => false, mutexLocked := false })

def pmuWrites (writes : List Write) (driver : Driver) : Driver :=
  writes.foldl (fun driver write => (pmuWrite nrCpuIds fails write driver).2) driver

end Device

end Xpedite.Kernel
