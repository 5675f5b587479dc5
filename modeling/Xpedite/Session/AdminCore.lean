import Xpedite.Session.ManagerCore
import Xpedite.Transport.FramerCore

/-!
Calls of `Environment::admin` of the profiler (`xpedite/profiler/environment.py`) over a connection
to the target: the client of `xpedite/transport` at one end, `pollClient` of `RemoteSession.C` at
the other.  Each byte stream hands over what was written to it in parts of any size.
-/

namespace Xpedite.Session

open Framework
open Transport (Framer Socket)
open Transport.Datagram (Failure)

/-- How a call of `admin` ends; all but the first are exceptions. -/
inductive AdminResult where
  | result (text : List Char)
  | failed (text : List Char)
  | invalid
  | unread (failure : Failure)
  | timedOut
  deriving DecidableEq

def decodeResponse (pdu : List Char) : AdminResult :=
  if pdu.length < 5 ∨ pdu[4]? ≠ some '|' then .invalid
  else
    let status := pdu.getD 3 ' '
    if !status.isDigit then .invalid
    else if status ≠ '0' then .failed (pdu.drop 5)
    else .result (pdu.drop 5)

structure Conversation where
  -- the commands of the calls to come, whether a call waits for its response, and the ended calls
  commands : List (List Char)
  waiting : Bool
  results : List AdminResult
  toTarget : List UInt8
  toClient : List UInt8
  framer : Framer
  handler : State
  -- the frames that were executed, with their responses
  executed : List (List UInt8 × Response)

/--
`send` is the first half of a call, with the bytes that the socket accepts, `receive` the second
half, and `timeout` a second half that gives up before anything has come; `poll` is one round of
the loop of `pollClient`.
-/
inductive AdminAction where
  | send (accepted : Nat)
  | poll (count : Nat) (environment : Environment)
  | receive (chunks : List Nat)
  | timeout

namespace Conversation

def start (commands : List (List Char)) (handler : State) : Conversation where
  commands := commands
  waiting := false
  results := []
  toTarget := []
  toClient := []
  framer := Framer.new
  handler := handler
  executed := []

def send (accepted : Nat) (conversation : Conversation) : Option Conversation :=
  match conversation.commands with
  | cmd :: commands =>
      if conversation.waiting then none
      else some { conversation with
        commands := commands
        waiting := true
        toTarget := conversation.toTarget ++ Transport.Datagram.send accepted cmd }
  | [] => none

/-- An empty frame is false, and a request that ends the connection has no successor. -/
def poll (count : Nat) (environment : Environment) (conversation : Conversation) :
    Option Conversation :=
  match conversation.framer.readFrame ⟨conversation.toTarget, .ready count⟩ with
  | (.disconnected, _, _) => none
  | (.none, framer, socket) =>
      some { conversation with framer := framer, toTarget := socket.unread }
  | (.frame data, framer, socket) =>
      if data = [] then some { conversation with framer := framer, toTarget := socket.unread }
      else
        match executeFrame environment conversation.handler data with
        | .returns handler response =>
            some { conversation with
              toTarget := socket.unread
              toClient := conversation.toClient ++ encode response
              framer := framer
              handler := handler
              executed := conversation.executed ++ [(data, response)] }
        | _ => none

/-- A call that waits blocks while there is nothing to read. -/
def receive (chunks : List Nat) (conversation : Conversation) : Option Conversation :=
  if conversation.waiting ∧ conversation.toClient ≠ [] then
    match Transport.Datagram.readFrame ⟨conversation.toClient, chunks⟩ with
    | .ok (pdu, stream) => some { conversation with
        waiting := false
        results := conversation.results ++ [decodeResponse pdu]
        toClient := stream.unread }
    | .error failure =>
        -- the client gives up the connection
        some { conversation with
          commands := []
          waiting := false
          results := conversation.results ++ [.unread failure]
          toClient := [] }
  else none

def timeout (conversation : Conversation) : Option Conversation :=
  if conversation.waiting ∧ conversation.toClient = [] then
    some { conversation with
      waiting := false
      results := conversation.results ++ [.timedOut] }
  else none

def step (conversation : Conversation) : AdminAction → Option Conversation
  | .send accepted => conversation.send accepted
  | .poll count environment => conversation.poll count environment
  | .receive chunks => conversation.receive chunks
  | .timeout => conversation.timeout

end Conversation

end Xpedite.Session
