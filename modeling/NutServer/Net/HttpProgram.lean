import NutServer.Net.HttpServerWire
import NutServer.Net.TcpServerConnections

/-!
# The HTTP server on its loop

An `nut::HttpServer` and the `EventLoop` of `main`: the server accepts
connections, `onMessage` is called behind each message that one of them reads,
and nobody else calls a connection. Other threads can queue functors.
-/

set_option autoImplicit false

namespace NutServer.Net

open Library
open TcpConnection (Operation)

structure HttpProgram where
  tcpServer : TcpServer
  /-- The request of each connection. `onConnection` makes it a new one, and no
  function of the `TcpServer` looks at it. -/
  requests : Nat → HttpRequest

namespace HttpProgram

def start (name : String) (residents : Residents) (runingPendingFunctors : Bool) : Outcome HttpProgram := do
  let tcpServer ← TcpServer.start name residents runingPendingFunctors
  return { tcpServer, requests := fun _ => .new }

/-- `onRequest`: the calls that it makes on the connection. -/
def onRequest (id : Nat) (request : HttpRequest) : Outcome (List Request) := do
  let response := HttpResponse.new.setResponse request
  let text ← HttpServer.render request
  return .send id text :: if !response.closeConnection then [.shutdown id] else []

/-- `onMessage`: the request behind it, and the calls that it makes on the connection. -/
def onMessage (nullFind : NullFind) (id : Nat) (request : HttpRequest) (buf : Buffer) :
    Outcome (HttpRequest × List Request) := do
  let (request, complete) ← request.parseRequest nullFind buf
  let rejection := if !complete then [.send id HttpServer.badRequest, .shutdown id] else []
  let answer ← if request.getFullReq then onRequest id request else pure []
  return (request, rejection ++ answer)

/-- The connection whose `messageCallback_` is called: one that has read something. -/
def delivered : Option (Nat × Operation) → Option Nat
  | some (id, .handleRead (.received (_ :: _))) => some id
  | _ => none

/-- `result` is what a direct write reports. -/
def callMessage (nullFind : NullFind) (program : HttpProgram) (id : Nat) (result : WriteResult) :
    Option HttpProgram := do
  let connection ← program.tcpServer.conns[id]?
  let (request, calls) ← (onMessage nullFind id (program.requests id) connection.conn.inputBuffer).toOption
  let tcpServer ← run TcpServer.step program.tcpServer (calls.map (.request · result))
  return { tcpServer, requests := Function.update program.requests id request }

/-- A call of a connection from outside the server. -/
def isOutside : TcpServer.Event → Bool
  | .request op _ | .foreign _ op => op.target.isSome
  | .loop _ | .poll _ | .handle _ | .call _ | .push _ | .release _ => false

/-- A step of the server, and the result of the direct write that a message may lead to. -/
abbrev Event : Type := TcpServer.Event × WriteResult

def step (nullFind : NullFind) (program : HttpProgram) (event : Event) : Option HttpProgram :=
  if isOutside event.1 then none
  else (program.tcpServer.step event.1).bind fun tcpServer =>
    (delivered (program.tcpServer.operation event.1)).elim (some { program with tcpServer }) fun id =>
      callMessage nullFind { program with tcpServer } id event.2

/-- What a plain server hears of a call. -/
def hears (answer : WriteResult) : Operation → Option HttpServer.Event
  | .handleRead result => some (.readable result answer)
  | .handleWrite result => some (.writable result)
  | .handleClose => some (.readable (.received []) answer)
  | .handleError => some (.readable .failed answer)
  | .connectDestroyed => some .destroyed
  | .send _ _ | .sendInLoop _ _ | .shutdown | .shutdownInLoop | .closeConnection | .closeConnectionInLoop => none

/-- What happens to one connection in a run. -/
def heard (nullFind : NullFind) (id : Nat) : HttpProgram → List Event → List HttpServer.Event
  | _, [] => []
  | program, event :: rest =>
      (TcpServer.only id (program.tcpServer.operation event.1)).filterMap (hears event.2) ++
        (step nullFind program event).elim [] fun next => heard nullFind id next rest

end HttpProgram

end NutServer.Net
