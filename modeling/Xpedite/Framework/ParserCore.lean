import Xpedite.Framework.HandlerCore
import Xpedite.Lib.CText
import Xpedite.Lib.Memory

/-!
`RequestParser.C` and the frames it gets from `RemoteSession::parseFrame`, a byte of which
is kept as the character with its code.
-/

namespace Xpedite.Framework

open Lib

namespace RequestParser

def reqPing : List Char := "Ping".toList
def reqTscHz : List Char := "TscHz".toList
def reqProbeList : List Char := "ListProbes".toList
def reqProbeActivation : List Char := "ActivateProbe".toList
def reqProbeDeactivation : List Char := "DeactivateProbe".toList
def argFile : List Char := "--file".toList
def argLine : List Char := "--line".toList
def argName : List Char := "--name".toList
def reqPmuActivation : List Char := "ActivatePmu".toList
def argPmuCount : List Char := "--gpCtrCount".toList
def argPmuFixed : List Char := "--fixedCtrList".toList
def reqPerfEventsActivation : List Char := "ActivatePerfEvents".toList
def argPerfEventsData : List Char := "--data".toList
def reqProfileActivation : List Char := "BeginProfile".toList
def argProfilePollInterval : List Char := "--pollInterval".toList
def argProfileSamplesFilePattern : List Char := "--samplesFilePattern".toList
def argProfileSamplesDataCapacity : List Char := "--samplesDataCapacity".toList
def reqProfileDeactivation : List Char := "EndProfile".toList

/-- The pairs `extractArguments` calls its extractor with; a last name without value is lost. -/
def argumentPairs {α : Type} : List α → List (α × α)
  | name :: value :: rest => (name, value) :: argumentPairs rest
  | _ => []

def extractProbeKey (key : ProbeKey) (argument : List Char × List Char) : ProbeKey :=
  if argument.1 = argFile then { key with file := argument.2 }
  else if argument.1 = argLine then { key with line := UInt32.ofInt (atoi argument.2) }
  else if argument.1 = argName then { key with name := argument.2 }
  else key

def parseProbeKey (args : List (List Char)) : ProbeKey :=
  (argumentPairs args).foldl extractProbeKey ⟨[], [], 0⟩

structure PmuArguments where
  gpEventsCount : Int
  fixedEventIndices : List Int

def extractPmu (pmu : PmuArguments) (argument : List Char × List Char) : PmuArguments :=
  if argument.1 = argPmuCount then { pmu with gpEventsCount := atoi argument.2 }
  else if argument.1 = argPmuFixed then
    { pmu with fixedEventIndices := pmu.fixedEventIndices ++ (strtok ',' argument.2).map atoi }
  else pmu

def parsePmu (args : List (List Char)) : PmuArguments :=
  (argumentPairs args).foldl extractPmu ⟨0, []⟩

def atoiTable (char : Char) : UInt8 :=
  if '0' ≤ char ∧ char ≤ '9' then UInt8.ofNat (char.toNat - 48)
  else if 'A' ≤ char ∧ char ≤ 'F' then UInt8.ofNat (char.toNat - 55)
  else if 'a' ≤ char ∧ char ≤ 'f' then UInt8.ofNat (char.toNat - 87)
  else 16

def atoiHex (first second : Char) : Option UInt8 :=
  let msb := atoiTable first
  let lsb := atoiTable second
  if 0x0F < msb ∨ 0x0F < lsb then none else some ((msb <<< 4) + lsb)

/-- Every third character separates two bytes and is not looked at. -/
def parseBytes : Nat → List Char → Except String (List UInt8)
  | offset, msb :: lsb :: rest =>
      match atoiHex msb lsb with
      | none => .error ("Detected invalid number at offset " ++ toString offset)
      | some byte =>
          match rest with
          | [] => .ok [byte]
          | _ :: rest => (parseBytes (offset + 3) rest).map (byte :: ·)
  | _, _ => .ok []

def pmuRequestOf (bytes : List UInt8) : PMUCtlRequest :=
  let byte := fun index => bytes.getD index 0
  { cpu := byte 0
    fixedEvtCount := byte 1
    gpEvtCount := byte 2
    offcoreEvtCount := byte 3
    fixedEvents := fun event =>
      let start := 4 + 3 * event.val
      ⟨byte start, byte (start + 1), byte (start + 2)⟩
    gpEvents := fun event =>
      let start := 13 + 8 * event.val
      ⟨byte start, byte (start + 1), byte (start + 2), byte (start + 3), byte (start + 4),
        byte (start + 5), byte (start + 6), byte (start + 7)⟩
    offcoreEvents := fun event =>
      UInt64.ofNat (numberOf ((bytes.drop (77 + 8 * event.val)).take 8)) }

def parsePmuRequest (text : List Char) : Except String PMUCtlRequest :=
  let expectedSize := 3 * 93 - 1
  if text.length ≠ expectedSize then
    .error ("Detected invalid pmu request - expected  " ++ toString expectedSize ++ " bytes " ++
      "recieved " ++ toString text.length ++ "bytes")
  else (parseBytes 0 text).map pmuRequestOf

/-- Data that is fine replaces all of the request, and data that is not makes it invalid. -/
def extractPerfEvents (request : Except String PMUCtlRequest)
    (argument : List Char × List Char) : Except String PMUCtlRequest :=
  if argument.1 = argPerfEventsData then parsePmuRequest argument.2 else request

def parsePerfEvents (args : List (List Char)) : Except String PMUCtlRequest :=
  (argumentPairs args).foldl extractPerfEvents (.ok (pmuRequestOf []))

structure ProfileArguments where
  samplesFilePattern : List Char
  pollInterval : UInt32
  samplesDataCapacity : UInt64

/-- There is no result when a number cannot be converted. -/
def extractProfile (profile : ProfileArguments) (argument : List Char × List Char) :
    Option ProfileArguments :=
  if argument.1 = argProfileSamplesFilePattern then
    some { profile with samplesFilePattern := argument.2 }
  else if argument.1 = argProfilePollInterval then
    (stoi argument.2).map fun interval => { profile with pollInterval := UInt32.ofInt interval }
  else if argument.1 = argProfileSamplesDataCapacity then
    (stol argument.2).map fun capacity =>
      { profile with samplesDataCapacity := UInt64.ofInt capacity }
  else some profile

def parseProfile (args : List (List Char)) : Option ProfileArguments :=
  (argumentPairs args).foldlM extractProfile ⟨[], 0, 0⟩

def parseArgs (req : List Char) (args : List (List Char)) : Option Request :=
  if req = reqPing then some .ping
  else if req = reqTscHz then some .tsc
  else if req = reqProbeList then some .probeList
  else if args ≠ [] ∧ (req = reqProbeActivation ∨ req = reqProbeDeactivation) then
    let key := parseProbeKey args
    if req = reqProbeActivation then some (.probeActivation [key])
    else some (.probeDeactivation [key])
  else if args ≠ [] ∧ req = reqPmuActivation then
    let pmu := parsePmu args
    some (.pmuActivation pmu.gpEventsCount pmu.fixedEventIndices)
  else if args ≠ [] ∧ req = reqPerfEventsActivation then
    match parsePerfEvents args with
    | .ok request => some (.perfEventsActivation request)
    | .error errors => some (.invalid errors)
  else if args ≠ [] ∧ req = reqProfileActivation then
    (parseProfile args).map fun profile =>
      .profileActivation profile.samplesFilePattern profile.pollInterval
        profile.samplesDataCapacity none none
  else if req = reqProfileDeactivation then some .profileDeactivation
  else some (.invalid ("Invalid Request: " ++ String.ofList req))

def tokens (frame : List UInt8) : List (List Char) :=
  strtok ' ' (cStr (frame.map fun byte => Char.ofNat byte.toNat))

def parse (frame : List UInt8) : Option Request :=
  match tokens frame with
  | [] => some (.invalid "Empty request ...")
  | req :: args => parseArgs req args

/-- The size of `opt`, the array on the stack for the list of fixed counters. -/
def optSize (argument : List Char × List Char) : Nat :=
  if argument.1 = argPmuFixed then argument.2.length + 1 else 0

/-- The largest of these arrays; each is gone before the next one is made. -/
def stackNeed (frame : List UInt8) : Nat :=
  match tokens frame with
  | [] => 0
  | req :: args =>
      if req = reqPmuActivation then
        (argumentPairs args).foldl (fun need argument => max need (optSize argument)) 0
      else 0

end RequestParser

/-- There is no result when an exception leaves this `noexcept` function, or when the stack has no
room for the array. -/
def parseFrame (environment : Environment) (frame : List UInt8) : Option Request :=
  if environment.stackRoom < RequestParser.stackNeed frame then none
  else RequestParser.parse frame

def executeFrame (environment : Environment) (state : State) (frame : List UInt8) :
    Outcome Response :=
  match parseFrame environment frame with
  | none => .terminates
  | some request => execute environment state request

end Xpedite.Framework
