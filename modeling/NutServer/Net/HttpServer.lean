import NutServer.Net.TcpConnection

/-!
# The HTTP server

The callbacks that `nut::HttpServer` gives its connections, and the runs of one
connection under them.
-/

set_option autoImplicit false

namespace NutServer.Net

open Library

namespace HttpServer

def onConnection (conn : TcpConnection) : TcpConnection :=
  if conn.connected then conn.setReq HttpRequest.new else conn

def badRequest : Bytes := ascii "HTTP/1.1 400 Bad Request\r\n\r\n"

def render (request : HttpRequest) : Outcome Bytes := do
  let response := HttpResponse.new.setResponse request
  let buf ← response.appendToBuffer Buffer.fresh
  let (text, _) ← buf.retrieveAsString
  return text

/-- `result` is what the direct write of the response would report. The
connection is shut down when the response asked to keep it open. -/
def onRequest (conn : TcpConnection) (request : HttpRequest) (result : WriteResult) :
    Outcome TcpConnection := do
  let response := HttpResponse.new.setResponse request
  let text ← render request
  let conn ← conn.send text result
  if !response.closeConnection then return conn.shutdown else return conn

def rejectMessage (conn : TcpConnection) (result : WriteResult) : Outcome TcpConnection := do
  let conn ← conn.send badRequest result
  return conn.shutdown

def onMessage (nullFind : NullFind) (result : WriteResult) (conn : TcpConnection) :
    Outcome TcpConnection := do
  let (request, complete) ← conn.request.parseRequest nullFind conn.inputBuffer
  let conn := conn.setReq request
  let conn ← if !complete then rejectMessage conn result else pure conn
  if conn.request.getFullReq then onRequest conn conn.request result else return conn

inductive Event where
  /-- The socket is readable; `answer` is the result of the direct write that
  the message may lead to. -/
  | readable (result : ReadResult) (answer : WriteResult)
  | writable (result : WriteResult)
  /-- The functor queued by `removeConnectionInLoop`. -/
  | destroyed
  deriving DecidableEq, Repr

def handle (nullFind : NullFind) (conn : TcpConnection) : Event → Outcome TcpConnection
  | .readable result answer => conn.handleRead (onMessage nullFind answer) result
  | .writable result => conn.handleWrite result
  | .destroyed => conn.connectDestroyed onConnection

def step (nullFind : NullFind) (conn : TcpConnection) (event : Event) : Option TcpConnection :=
  (handle nullFind conn event).toOption

/-- A connection after `connectEstablished`. -/
def established (sockfd : Nat) : TcpConnection :=
  let conn := TcpConnection.new sockfd
  { conn.updateChannel conn.channel.enableReading with state := .connected }

theorem connectEstablished_new (sockfd : Nat) :
    (TcpConnection.new sockfd).connectEstablished onConnection = .ok (established sockfd) := rfl

end HttpServer

end NutServer.Net
