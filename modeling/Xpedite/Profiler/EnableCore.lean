import Xpedite.Framework.ParserCore
import Xpedite.Kernel.PmuDeviceCore
import Xpedite.Profiler.PmuRequestCore

/-!
`PMUCtrl.enable` of `xpedite/pmu/pmuctrl.py` with the driver it writes to.  The device is a text
file, which takes packed bytes with Python 2; a request that the driver refuses is an `IOError`.
-/

namespace Xpedite.Profiler

open Framework

inductive EnableError where
  | pmu (cause : PmuError)
  | packing
  | refused (result : Int)
  deriving DecidableEq

/-- What a write meets in the kernel: the cpus online, and if the call to the cpu gets there. -/
structure Answer where
  online : Nat → Bool
  called : Bool

def writeOf (answer : Answer) (bytes : List UInt8) : Kernel.Write where
  len := bytes.length
  request := some (RequestParser.pmuRequestOf bytes)
  online := answer.online
  called := answer.called

namespace PMUCtrl

section Enable

variable (nrCpuIds : Nat) (fails : Nat → Kernel.Failures) (answer : Nat → Answer)

/-- The loop of `enable`, with a `write` and a `flush` for each cpu. -/
def writeRequests (eventSet : EventSet) :
    List Nat → Kernel.Driver → Except EnableError Unit × Kernel.Driver
  | [], driver => (.ok (), driver)
  | cpu :: cpuSet, driver =>
      match buildRequestGroup cpu eventSet with
      | none => (.error .packing, driver)
      | some requestGroup =>
          let (result, driver) :=
            Kernel.pmuWrite nrCpuIds fails (writeOf (answer cpu) requestGroup) driver
          if result < 0 then (.error (.refused result), driver)
          else writeRequests eventSet cpuSet driver

def enable (eventsDb : EventsDb) (cpuSet : List Nat) (events : List Event)
    (driver : Kernel.Driver) : Except EnableError EventSet × Kernel.Driver :=
  match buildEventSet eventsDb cpuSet events with
  | .error cause => (.error (.pmu cause), driver)
  | .ok eventSet =>
      let (written, driver) := writeRequests nrCpuIds fails answer eventSet cpuSet driver
      (written.map fun _ => eventSet, driver)

end Enable

end PMUCtrl

end Xpedite.Profiler
