import Xpedite.Framework.ParserCore
import Xpedite.Session.LocalCore
import Xpedite.Transport.DatagramCore

/-!
`SessionManager.H` with `RemoteSession.C`: one poll serves the waiting request of the process,
then a connection that comes in and the frames of the client.
-/

namespace Xpedite.Session

open Framework Transport.Datagram

def encode : Response → List UInt8
  | .value text => encodeResponse .success text.toList
  | .errors text => encodeResponse .failure text.toList

def activeSession : String := "xpedite dectected active session - multiple sessions not supported"

def refusal : List UInt8 := encodeResponse .failure activeSession.toList

structure SessionManager where
  handler : State
  -- `_request` and `_isAlive` of the local session
  request : Option Request
  localAlive : Bool
  -- there is a remote session, and its `_client`
  remote : Bool
  client : Option Nat
  sessionType : SessionType

/-- What a poll does with the requests and connections; a request that throws has no response. -/
inductive Entry where
  | executedLocal (request : Request) (response : Option Response)
  | abortedLocal (request : Request) (errors : String)
  | accepted (socket : Nat)
  | rejected (socket : Nat) (pdu : List UInt8)
  | closed (socket : Nat)
  | executedRemote (socket : Nat) (frame : List UInt8)
  | replied (socket : Nat) (pdu : List UInt8)

/-- How a poll ends; the background thread does not survive an exception. -/
inductive PollOutcome where
  | returns (manager : SessionManager) (journal : List Entry)
  | assertionFailed (journal : List Entry)
  | throws (journal : List Entry)
  | terminates (journal : List Entry)

namespace PollOutcome

def journal : PollOutcome → List Entry
  | returns _ journal => journal
  | assertionFailed journal => journal
  | throws journal => journal
  | terminates journal => journal

def after (earlier : List Entry) : PollOutcome → PollOutcome
  | returns manager journal => returns manager (earlier ++ journal)
  | assertionFailed journal => assertionFailed (earlier ++ journal)
  | throws journal => throws (earlier ++ journal)
  | terminates journal => terminates (earlier ++ journal)

def andThen (outcome : PollOutcome) (next : SessionManager → PollOutcome) : PollOutcome :=
  match outcome with
  | returns manager journal => (next manager).after journal
  | assertionFailed journal => assertionFailed journal
  | throws journal => throws journal
  | terminates journal => terminates journal

end PollOutcome

/-- What `accept` of the listener does; it throws if a connection cannot be set up. -/
inductive Incoming where
  | nothing
  | socket (socket : Nat)
  | failure

/-- What `readFrame` does before it has no frame, and if the reply to the frame can be sent. -/
inductive Read where
  | frame (data : List UInt8) (environment : Environment) (written : Bool)
  | disconnected

structure PollInputs where
  -- for the local request
  executing : Environment
  incoming : Incoming
  reads : List Read
  -- for the end of the client's profile, and for a second attempt at it
  closing : Environment
  retrying : Environment
  -- for the poll of the collector
  collecting : Environment

namespace SessionManager

def new (handler : State) : SessionManager where
  handler := handler
  request := none
  localAlive := false
  remote := false
  client := none
  sessionType := .dormant

def pollLocal (environment : Environment) (manager : SessionManager) (canAcceptRequest : Bool) :
    PollOutcome :=
  match manager.request with
  | none => .returns manager []
  | some request =>
      if canAcceptRequest then
        match Framework.execute environment manager.handler request with
        | .returns handler response =>
            .returns { manager with handler := handler, request := none, localAlive := true }
              [.executedLocal request (some response)]
        | .throws _ => .throws [.executedLocal request none]
        | .terminates => .terminates [.executedLocal request none]
      else .returns { manager with request := none } [.abortedLocal request activeSession]

/-- The end of `pollClient`, a `noexcept` function. -/
def dropClient (environment : Environment) (socket : Nat) (manager : SessionManager) :
    PollOutcome :=
  match Framework.resetClient environment manager.handler with
  | .returns handler () => .returns { manager with handler := handler, client := none }
      [.closed socket]
  | .throws _ => .terminates []
  | .terminates => .terminates []

/-- The reset after a reply that cannot be sent; its exception is caught, and it is tried again. -/
def resetClient (closing retrying : Environment) (socket : Nat) (manager : SessionManager) :
    PollOutcome :=
  match Framework.resetClient closing manager.handler with
  | .returns handler () => .returns { manager with handler := handler, client := none }
      [.closed socket]
  | .throws handler => { manager with handler := handler }.dropClient retrying socket
  | .terminates => .terminates []

def pollClient (closing retrying : Environment) (socket : Nat) :
    List Read → SessionManager → PollOutcome
  | [], manager => .returns manager []
  | .disconnected :: _, manager => manager.dropClient closing socket
  | .frame data environment written :: rest, manager =>
      match executeFrame environment manager.handler data with
      | .terminates => .terminates [.executedRemote socket data]
      | .throws handler =>
          ({ manager with handler := handler }.dropClient closing socket).after
            [.executedRemote socket data]
      | .returns handler response =>
          if written then
            (pollClient closing retrying socket rest { manager with handler := handler }).after
              [.executedRemote socket data, .replied socket (encode response)]
          else
            ({ manager with handler := handler }.resetClient closing retrying socket).after
              [.executedRemote socket data]

/-- A connection that is not kept is closed with its socket. -/
def accept (incoming : Incoming) (manager : SessionManager) (canAcceptRequest : Bool) :
    PollOutcome :=
  match incoming with
  | .nothing => .returns manager []
  | .failure => .throws []
  | .socket socket =>
      if !canAcceptRequest || manager.client.isSome then
        .returns manager [.rejected socket refusal, .closed socket]
      else .returns { manager with client := some socket } [.accepted socket]

def pollRemote (inputs : PollInputs) (manager : SessionManager) (canAcceptRequest : Bool) :
    PollOutcome :=
  (manager.accept inputs.incoming canAcceptRequest).andThen fun manager =>
    match manager.client with
    | some socket =>
        if canAcceptRequest then
          manager.pollClient inputs.closing inputs.retrying socket inputs.reads
        else .returns manager []
    | none => .returns manager []

/-- Whether a session of the type, or none, is under way. -/
def canAccept (manager : SessionManager) (own : SessionType) : Bool :=
  manager.sessionType = .dormant || manager.sessionType = own

/-- The session type after a poll of the session of one type, which begins with an assertion. -/
def settle (own : SessionType) (alive : Bool) (manager : SessionManager) : PollOutcome :=
  if alive then
    if manager.canAccept own then .returns { manager with sessionType := own } []
    else .assertionFailed []
  else if manager.sessionType = own then .returns { manager with sessionType := .dormant } []
  else .returns manager []

def localTurn (inputs : PollInputs) (manager : SessionManager) : PollOutcome :=
  (manager.pollLocal inputs.executing (manager.canAccept .local)).andThen fun manager =>
    manager.settle .local manager.localAlive

def remoteTurn (inputs : PollInputs) (manager : SessionManager) : PollOutcome :=
  if manager.remote then
    (manager.pollRemote inputs (manager.canAccept .remote)).andThen fun manager =>
      manager.settle .remote manager.client.isSome
  else manager.settle .remote false

/-- `Handler::poll` collects the samples of a profile. -/
def pollHandler (environment : Environment) (manager : SessionManager) : PollOutcome :=
  if manager.sessionType ≠ .dormant ∧ Handler.isProfileActive manager.handler ∧
      environment.samplesOverflow then .throws []
  else .returns manager []

def poll (manager : SessionManager) (inputs : PollInputs) : PollOutcome :=
  ((manager.localTurn inputs).andThen fun manager => manager.remoteTurn inputs).andThen
    fun manager => manager.pollHandler inputs.collecting

end SessionManager

structure Service where
  manager : SessionManager
  journal : List Entry

/-- A thread puts its request in the empty slot, or the background thread polls. -/
inductive ServiceAction where
  | submit (request : Request)
  | enableRemoteSession
  | poll (inputs : PollInputs)

namespace Service

def new (handler : State) : Service := ⟨SessionManager.new handler, []⟩

def step (service : Service) : ServiceAction → Option Service
  | .submit request =>
      match service.manager.request with
      | none => some { service with manager := { service.manager with request := some request } }
      | some _ => none
  | .enableRemoteSession =>
      if service.manager.remote then none
      else some { service with manager := { service.manager with remote := true } }
  | .poll inputs =>
      match service.manager.poll inputs with
      | .returns manager journal => some ⟨manager, service.journal ++ journal⟩
      | _ => none

end Service

end Xpedite.Session
