import Mathlib.Logic.Function.Basic
import Xpedite.Framework.SessionCore
import Xpedite.Lib.Runs

/-!
`LocalSession.H`: the slot through which threads of the process have the background thread
execute their requests.  Every exchange, load and store of the slot is one step.
-/

namespace Xpedite.Session

open Framework

/-- The memory of a request; its response is not ready while it is `none`. -/
structure RequestObject where
  request : Request
  response : Option Response

def succeeded (response : Option Response) : Bool := response.any Response.success

def RequestObject.abort (object : RequestObject) (errors : String) : RequestObject :=
  { object with response := some (.errors errors) }

/-- How far a thread is in `execute`, with the time it has slept. -/
inductive Caller (Address : Type) where
  | idle
  | enqueuing (address : Address) (elapsed : Nat)
  | awaiting (address : Address) (elapsed : Nat)

/-- How far the background thread is in `poll`.  It ends in a request that throws. -/
inductive Poller (Address : Type) where
  | idle
  | loaded (address : Address)
  | handled (address : Address)
  | ended (address : Address)

inductive Event (Thread Address : Type) where
  | called (thread : Thread) (address : Address)
  | handled (address : Address) (executed : Bool) (response : Option Response)
  | returned (thread : Thread) (address : Address) (value : Bool)
  | timedOut (thread : Thread) (address : Address)

structure LocalSession (Thread Address : Type) where
  request : Option Address
  handler : State
  isAlive : Bool
  memory : Address → RequestObject
  -- the objects of the calls that have not returned
  live : Address → Bool
  callers : Thread → Caller Address
  poller : Poller Address
  journal : List (Event Thread Address)

variable {Thread Address : Type}

def LocalSession.new (handler : State) (memory : Address → RequestObject) :
    LocalSession Thread Address where
  request := none
  handler := handler
  isAlive := false
  memory := memory
  live := fun _ => false
  callers := fun _ => .idle
  poller := .idle
  journal := []

/--
`call` enters `execute` with a request object of its own, `exchange` and `await` are one turn
of its loops, and `load`, `handle` and `clear` are the steps of `poll`.  A weak exchange may
fail although the slot is empty.
-/
inductive Action (Thread Address : Type) where
  | call (thread : Thread) (address : Address) (request : Request)
  | exchange (thread : Thread) (spurious : Bool)
  | await (thread : Thread)
  | load
  | handle (environment : Environment) (canAcceptRequest : Bool)
  | clear

namespace LocalSession

def hasTimedOut (duration elapsed : Nat) : Bool := if duration = 0 then false else duration < elapsed

variable [DecidableEq Thread] [DecidableEq Address]

def setCaller (session : LocalSession Thread Address) (thread : Thread)
    (caller : Caller Address) : LocalSession Thread Address :=
  { session with callers := Function.update session.callers thread caller }

def record (session : LocalSession Thread Address) (event : Event Thread Address) :
    LocalSession Thread Address :=
  { session with journal := session.journal ++ [event] }

def call (session : LocalSession Thread Address) (thread : Thread) (address : Address)
    (request : Request) : Option (LocalSession Thread Address) :=
  match session.callers thread with
  | .idle =>
      if session.live address then none
      else some (({ session with
        memory := Function.update session.memory address ⟨request, none⟩
        live := Function.update session.live address true }.setCaller thread
          (.enqueuing address 0)).record (.called thread address))
  | _ => none

def timeOut (session : LocalSession Thread Address) (thread : Thread) (address : Address) :
    LocalSession Thread Address :=
  ({ session with
    memory := Function.update session.memory address
      ((session.memory address).abort "timed out")
    live := Function.update session.live address false }.setCaller thread .idle).record
      (.timedOut thread address)

def exchange (timeout : Nat) (session : LocalSession Thread Address) (thread : Thread)
    (spurious : Bool) : Option (LocalSession Thread Address) :=
  match session.callers thread with
  | .enqueuing address elapsed =>
      if hasTimedOut timeout elapsed then some (session.timeOut thread address)
      else if session.request.isNone && !spurious then
        some ({ session with request := some address }.setCaller thread (.awaiting address elapsed))
      else some (session.setCaller thread
        (.enqueuing address (elapsed + session.handler.pollInterval.toNat)))
  | _ => none

def await (timeout : Nat) (session : LocalSession Thread Address) (thread : Thread) :
    Option (LocalSession Thread Address) :=
  match session.callers thread with
  | .awaiting address elapsed =>
      if hasTimedOut timeout elapsed then some (session.timeOut thread address)
      else if session.request = some address then
        some (session.setCaller thread
          (.awaiting address (elapsed + session.handler.pollInterval.toNat)))
      else some (({ session with
        live := Function.update session.live address false }.setCaller thread .idle).record
          (.returned thread address (succeeded (session.memory address).response)))
  | _ => none

def load (session : LocalSession Thread Address) : Option (LocalSession Thread Address) :=
  match session.poller, session.request with
  | .idle, none => some session
  | .idle, some address => some { session with poller := .loaded address }
  | _, _ => none

/-- The process is gone when the request terminates it. -/
def handle (session : LocalSession Thread Address) (environment : Environment)
    (canAcceptRequest : Bool) : Option (LocalSession Thread Address) :=
  match session.poller with
  | .loaded address =>
      if canAcceptRequest then
        match Framework.execute environment session.handler (session.memory address).request with
        | .returns handler response =>
            some ({ session with
              handler := handler
              isAlive := true
              memory := Function.update session.memory address
                { session.memory address with response := some response }
              poller := .handled address }.record (.handled address true (some response)))
        | .throws handler =>
            some ({ session with handler := handler, poller := .ended address }.record
              (.handled address true (session.memory address).response))
        | .terminates => none
      else
        let object := (session.memory address).abort
          "xpedite dectected active session - multiple sessions not supported"
        some ({ session with
          memory := Function.update session.memory address object
          poller := .handled address }.record (.handled address false object.response))
  | _ => none

def clear (session : LocalSession Thread Address) : Option (LocalSession Thread Address) :=
  match session.poller with
  | .handled _ => some { session with request := none, poller := .idle }
  | _ => none

def step (timeout : Nat) (session : LocalSession Thread Address) :
    Action Thread Address → Option (LocalSession Thread Address)
  | .call thread address request => session.call thread address request
  | .exchange thread spurious => session.exchange timeout thread spurious
  | .await thread => session.await timeout thread
  | .load => session.load
  | .handle environment canAcceptRequest => session.handle environment canAcceptRequest
  | .clear => session.clear

end LocalSession

end Xpedite.Session
