import Xpedite.Lib.Arena
import Xpedite.Lib.OrderedDict
import Xpedite.Lib.Pattern
import Xpedite.Lib.PyText

/-!
The database of pmu events (`xpedite/pmu/eventsDb.py`, with the events of `uarchEvent.py`).  Events
are objects in an arena; the database maps names to them.
-/

namespace Xpedite.Events

open Lib

abbrev Text : Type := List Char

inductive EventType where
  | genericCore
  | fixedCore
  | offCore
  deriving DecidableEq

/-- An offcore event lists its select codes. -/
inductive EventSelect where
  | code (value : Nat)
  | codes (values : List Nat)
  deriving DecidableEq

/-- A fixed event has one index for a set. -/
inductive ValidPmc where
  | index (value : Nat)
  | indices (values : List Nat)
  deriving DecidableEq

/-- `GenericCoreEvent` and its subclasses; nothing stands for `None`. -/
structure UarchEvent where
  eventType : EventType
  name : Option Text
  eventSelect : Option EventSelect
  unitMask : Option Nat
  counterMask : Option Int
  invert : Option Bool
  briefDescription : Option Text
  description : Option Text
  validSmtPmc : Option ValidPmc
  validPmc : Option ValidPmc
  msrIndex : Option Text
  msrValue : Option Nat
  anyThread : Option Int
  edgeDetect : Option Bool
  pebs : Option Bool
  takenAlone : Option Bool
  dataLA : Option Bool
  l1HitIndication : Option Bool
  errata : Option Text
  isOffCore : Bool
  deriving DecidableEq

inductive PyError where
  | keyError (key : Text)
  | typeError
  | valueError
  | indexError
  deriving DecidableEq

namespace CmaskQualifier

def smallHexDigit (char : Char) : Bool :=
  Pattern.between '0' '9' char || Pattern.between 'a' 'f' char

def regEx : Pattern :=
  (Pattern.literal ['c']).seq <| (Pattern.literal ['m', 'a', 's', 'k', '=']).optional.seq <|
    Pattern.group <| ((Pattern.literal ['0', 'x']).seq (.many1 smallHexDigit)).alt
      (.many1 (Pattern.between '0' '9'))

/-- The counter mask of a qualifier that matches.  `re.match` does not take `None`. -/
def «match» : Option Text → Except PyError (Option Int)
  | none => .error .typeError
  | some qualifier =>
      match regEx.first qualifier with
      | none => .ok none
      | some found =>
          match found.groups with
          | [] => .error .indexError
          | group :: _ =>
              match int 16 group with
              | none => .error .valueError
              | some counterMask => .ok (some counterMask)

def apply (counterMask : Int) (event : UarchEvent) : UarchEvent :=
  { event with counterMask := some counterMask }

end CmaskQualifier

structure EventsDb where
  eventsMap : OrderedDict Text Nat
  events : Arena UarchEvent
  stored : ∀ entry ∈ eventsMap, entry.2 < events.size

namespace EventsDb

def regEx : Pattern :=
  (Pattern.few Pattern.dot).group.seq <| (Pattern.literal [':']).seq (Pattern.many Pattern.dot).group

def stripQualifier (eventName : Text) : Text × Option Text :=
  match regEx.first eventName with
  | some ⟨_, name :: qualifiers :: _, _⟩ => (name, some qualifiers)
  | _ => (eventName, none)

/-- The event itself is changed; nothing stands for `None`. -/
def applyQualifiers (events : Arena UarchEvent) (event : Nat) (qualifiers : Option Text) :
    Except PyError (Option Nat) × Arena UarchEvent :=
  match CmaskQualifier.match qualifiers with
  | .error error => (.error error, events)
  | .ok none => (.ok none, events)
  | .ok (some counterMask) =>
      (.ok (some event), events.modify event (CmaskQualifier.apply counterMask))

def deepcopy (events : Arena UarchEvent) (event : Nat) : Nat × Arena UarchEvent :=
  (events.size, events.alloc (events.cell event))

/-- `eventName in db`, where a match counts as true and `None` as false. -/
def contains (db : EventsDb) (eventName : Text) : Except PyError Bool :=
  if (db.eventsMap.get eventName).isSome then .ok true
  else
    let (name, qualifiers) := stripQualifier eventName
    if (db.eventsMap.get name).isSome then
      (CmaskQualifier.match qualifiers).map Option.isSome
    else .ok false

/-- `db[eventName]`, with the arena behind it. -/
def getitem (db : EventsDb) (eventName : Text) :
    Except PyError (Option Nat) × Arena UarchEvent :=
  match db.eventsMap.get eventName with
  | some event => (.ok (some event), db.events)
  | none =>
      let (name, qualifiers) := stripQualifier eventName
      match db.eventsMap.get name with
      | none => (.error (.keyError name), db.events)
      | some event =>
          let (event, events) := deepcopy db.events event
          let events := events.modify event fun event => { event with name := some eventName }
          applyQualifiers events event qualifiers

end EventsDb

end Xpedite.Events
