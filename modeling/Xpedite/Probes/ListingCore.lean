import Xpedite.Lib.Fields
import Xpedite.Lib.OStream
import Xpedite.Lib.OrderedDict
import Xpedite.Lib.PyText

/-!
The list of probes as a text: `Log.C` writes it for `ListProbes`, and `ProbeAdmin.getProbes`
has `ProbeFactory.buildFromRecords` parse it into objects of `xpedite/types/probe.py`.
-/

namespace Xpedite.Probes

open Lib

structure CallSiteAttr where
  attr : UInt32

namespace CallSiteAttr

variable (attr : CallSiteAttr)

def has (bit : UInt32) : Bool := attr.attr &&& ((1 : UInt32) <<< bit) != 0

def isActive : Bool := attr.has 0

def canBeginTxn : Bool := attr.has 1

def canSuspendTxn : Bool := attr.has 2

def canResumeTxn : Bool := attr.has 3

def canEndTxn : Bool := attr.has 4

def canStoreData : Bool := attr.has 5

def names : List (List Char) :=
  (if attr.canStoreData then ["canStoreData".toList] else []) ++
    (if attr.canBeginTxn then ["canBeginTxn".toList] else []) ++
    (if attr.canSuspendTxn then ["canSuspendTxn".toList] else []) ++
    (if attr.canResumeTxn then ["canResumeTxn".toList] else []) ++
    (if attr.canEndTxn then ["canEndTxn".toList] else [])

def toString : List Char :=
  match attr.names with
  | [] => "None".toList
  | names => List.intercalate [','] names

end CallSiteAttr

structure Probe where
  address : UInt64
  rawCallSite : UInt64
  recorderReturnSite : UInt64
  name : List Char
  file : List Char
  func : List Char
  line : UInt32
  attr : CallSiteAttr
  id : UInt32

def Probe.isActive (probe : Probe) : Bool := probe.attr.isActive

/-- An action that is not given is a null pointer. -/
def logProbe (stream : OStream) (probe : Probe) (action : Option (List Char)) : OStream :=
  let stream :=
    match action with
    | none => stream
    | some action => ((stream.put "Action=".toList).put action).put " | ".toList
  let stream := stream.put "Id=".toList
  let stream := (((stream.setfill '0').setw 4).number probe.id.toNat).setfill ' '
  let stream := (stream.put " | Probe=".toList).pointer probe.address.toNat
  let stream := stream.put " | CallSite=".toList
  let stream := (stream.hex.pointer probe.rawCallSite.toNat).dec
  let stream := stream.put " | RecorderReturnSite=".toList
  let stream := (stream.hex.pointer probe.recorderReturnSite.toNat).dec
  let stream := (stream.put " | Status=".toList).put
    (if probe.isActive then "enabled".toList else "disabled".toList)
  let stream := (stream.put " | Name=".toList).put probe.name
  let stream := (stream.put " | File=".toList).put probe.file
  let stream := (stream.put " | Line=".toList).number probe.line.toNat
  let stream := (stream.put " | Function=".toList).put probe.func
  ((stream.put " | Attributes=".toList).put probe.attr.toString).endl

def logProbes (probes : List Probe) : List Char :=
  (probes.foldl (fun stream probe => logProbe stream probe none) OStream.new).text

structure AnchoredProbe where
  name : List Char
  sysName : List Char
  filePath : List Char
  lineNo : Int
  attributes : List Char
  isAnonymous : Bool
  isActive : Bool
  canBeginTxn : Bool
  canSuspendTxn : Bool
  canResumeTxn : Bool
  canEndTxn : Bool
  -- the only one that `AbstractProbe` does not initialize, so that there may be no such attribute
  canStoreData : Option Bool
  deriving DecidableEq

/-- The exceptions of `buildFromRecords`, by what goes into their texts. -/
inductive Failure where
  | invalidRecord (record : List Char)
  | missingField (field record : List Char)
  | invalidAnchor (name : List Char)
  | invalidLine (text : List Char)

namespace AnchoredProbe

/-- An attribute of another name is set too, but read by nobody. -/
def setAttr (probe : AnchoredProbe) (attr : List Char) : AnchoredProbe :=
  if attr = "canStoreData".toList then { probe with canStoreData := some true }
  else if attr = "canBeginTxn".toList then { probe with canBeginTxn := true }
  else if attr = "canSuspendTxn".toList then { probe with canSuspendTxn := true }
  else if attr = "canResumeTxn".toList then { probe with canResumeTxn := true }
  else if attr = "canEndTxn".toList then { probe with canEndTxn := true }
  else probe

def initAttributes (probe : AnchoredProbe) : AnchoredProbe :=
  (split [','] probe.attributes).foldl setAttr probe

def new (name filePath lineNo attributes : List Char) (isActive : Bool) (sysName : List Char) :
    Except Failure AnchoredProbe :=
  if filePath = [] ∨ lineNo = [] then .error (.invalidAnchor name)
  else
    match int 10 lineNo with
    | none => .error (.invalidLine lineNo)
    | some lineNo =>
        .ok (initAttributes
          { name := name
            sysName := sysName
            filePath := filePath
            lineNo := lineNo
            attributes := attributes
            isAnonymous := false
            isActive := isActive
            canBeginTxn := false
            canSuspendTxn := false
            canResumeTxn := false
            canEndTxn := false
            canStoreData := none })

end AnchoredProbe

namespace ProbeFactory

def fieldDelimiter : List Char := " | ".toList

def fieldRecorderReturnSite : List Char := "RecorderReturnSite".toList

def fieldName : List Char := "Name".toList

def fieldFile : List Char := "File".toList

def fieldLine : List Char := "Line".toList

def fieldAttributes : List Char := "Attributes".toList

def fieldStatus : List Char := "Status".toList

def probeStatusEnabled : List Char := "enabled".toList

/-- No workspace and an empty one are trimmed alike. -/
def trimWorkspace (filePath : List Char) (workspace : Option (List Char)) : List Char :=
  let filePath :=
    match workspace with
    | none => filePath
    | some workspace =>
        if workspace ≠ [] ∧ workspace.isPrefixOf filePath then filePath.drop workspace.length
        else filePath
  match filePath with
  | '/' :: rest => rest
  | _ => filePath

abbrev Fields : Type := OrderedDict (List Char) (List Char)

/-- `find` gives -1 where `findIdx` gives the length. -/
def addField (record : List Char) (fields : Fields) (field : List Char) :
    Except Failure Fields :=
  let index := field.findIdx (· = '=')
  if index = field.length ∨ field.length < index + 1 then .error (.invalidRecord record)
  else .ok (fields.update (field.take index) (field.drop (index + 1)))

def parseFields (record : List Char) : Except Failure Fields :=
  (split fieldDelimiter record).foldlM (addField record) []

def fieldOf (record : List Char) (fields : Fields) (field : List Char) :
    Except Failure (List Char) :=
  match fields.get field with
  | none => .error (.missingField field record)
  | some value => .ok value

abbrev AnchoredProbes : Type := OrderedDict (List Char) AnchoredProbe

/-- Every record has a field at least, so that `fields` is never empty. -/
def addRecord (workspace : Option (List Char)) (probes : AnchoredProbes) (record : List Char) :
    Except Failure AnchoredProbes := do
  let fields ← parseFields record
  let file ← fieldOf record fields fieldFile
  let fields := fields.update fieldFile (trimWorkspace file workspace)
  let returnSite ← fieldOf record fields fieldRecorderReturnSite
  let name ← fieldOf record fields fieldName
  let file ← fieldOf record fields fieldFile
  let line ← fieldOf record fields fieldLine
  let attributes ← fieldOf record fields fieldAttributes
  let status ← fieldOf record fields fieldStatus
  let sysName ← fieldOf record fields fieldName
  let probe ← AnchoredProbe.new name file line attributes (status = probeStatusEnabled) sysName
  return probes.update returnSite probe

def buildFromRecords (workspace : Option (List Char)) (records : List (List Char)) :
    Except Failure AnchoredProbes :=
  records.foldlM (addRecord workspace) []

end ProbeFactory

/-- The records of a text that `getProbes` goes on with; it gives up an empty one before. -/
def recordsOf (result : List Char) : List (List Char) :=
  if result = [] then [] else split ['\n'] (strip result)

end Xpedite.Probes
