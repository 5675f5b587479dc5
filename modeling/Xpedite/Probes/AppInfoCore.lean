import Xpedite.Framework.ProbeLocation
import Xpedite.Lib.PyLines
import Xpedite.Probes.ListingCore

/-!
The app info file: `Framework::log` of `xpedite/framework/Framework.C` writes it, `AppInfo.load` of
`xpedite/profiler/appInfo.py` reads it.
-/

namespace Xpedite.Probes

open Lib

structure Target where
  pid : Nat
  listenerPort : UInt16
  executablePath : List Char
  tscHz : UInt64
  probes : List Probe

namespace Framework

def log (target : Target) : List Char :=
  let stream := ((OStream.new.put "pid: ".toList).number target.pid).endl
  let stream := ((stream.put "port: ".toList).number target.listenerPort.toNat).endl
  let stream := ((stream.put "binary: ".toList).put target.executablePath).endl
  let stream := ((stream.put "tscHz: ".toList).number target.tscHz.toNat).endl
  (target.probes.foldl (fun stream probe => logProbe stream probe none) stream).text

end Framework

inductive AppInfoError where
  -- "failed to load pid from appinfo", and so on, with the record it should be in
  | failedToLoad (field record : List Char)
  | invalidTscHz (text : List Char)
  | missingMandatoryRecords
  | probes (failure : Failure)

structure AppInfo where
  pid : List Char
  port : List Char
  executablePath : List Char
  executableName : List Char
  tscHz : Int
  probes : ProbeFactory.AnchoredProbes

namespace AppInfo

/-- The second word of a record. -/
def valueOf (field record : List Char) : Except AppInfoError (List Char) :=
  match (words record)[1]? with
  | none => .error (.failedToLoad field record)
  | some value => .ok value

def load (workspace : Option (List Char)) (file : List Char) : Except AppInfoError AppInfo :=
  match splitlines (universalNewlines file) with
  | pidInfo :: portInfo :: executablePath :: tscHzInfo :: records => do
      let pid ← valueOf "pid".toList pidInfo
      let port ← valueOf "port".toList portInfo
      let executablePath ← valueOf "binary path".toList executablePath
      let executableName := Xpedite.Framework.ProbeAdmin.basename executablePath
      let tscHz ← valueOf "tscHz".toList tscHzInfo
      match int 10 tscHz with
      | none => throw (.invalidTscHz tscHz)
      | some tscHz =>
          let probes ← (ProbeFactory.buildFromRecords workspace records).mapError .probes
          return { pid, port, executablePath, executableName, tscHz, probes }
  | _ => .error .missingMandatoryRecords

end AppInfo

end Xpedite.Probes
