import NutServer.Net.Channel
import NutServer.Net.HttpData

/-!
# Connections

`nut::TcpConnection` in its loop thread. Results of system calls are arguments;
the calls themselves, and the callbacks into the server, are recorded in order.
-/

set_option autoImplicit false

namespace NutServer.Net

open Library

inductive State where
  | connecting
  | connected
  | disconnetcing
  | disconnected
  deriving DecidableEq, Repr

inductive WriteResult where
  | failed
  | wrote (count : Nat)
  deriving DecidableEq, Repr

def WriteResult.nWrote : WriteResult → Nat
  | .failed => 0
  | .wrote count => count

/-- What a connection does to its surroundings. -/
inductive Call where
  /-- `send(messages)`, before the state is looked at. -/
  | send (messages : Bytes)
  /-- `::write` of the offered bytes. -/
  | write (offered : Bytes) (result : WriteResult)
  /-- `::shutdown(fd, SHUT_WR)` while so many bytes wait in `outputBuffer_`. -/
  | shutdown (pending : Nat)
  | getSocketError
  | updateChannel (events : BitVec 32)
  | removeChannel
  | closeCallback
  deriving DecidableEq, Repr

structure TcpConnection where
  state : State
  channel : Channel
  request : HttpRequest
  inputBuffer : Buffer
  outputBuffer : Buffer
  calls : List Call

namespace TcpConnection

def new (sockfd : Nat) : TcpConnection where
  state := .connecting
  channel := Channel.new sockfd
  request := HttpRequest.new
  inputBuffer := Buffer.fresh
  outputBuffer := Buffer.fresh
  calls := []

def call (conn : TcpConnection) (entry : Call) : TcpConnection :=
  { conn with calls := conn.calls ++ [entry] }

def connected (conn : TcpConnection) : Bool := conn.state = .connected

def setReq (conn : TcpConnection) (request : HttpRequest) : TcpConnection :=
  { conn with request }

/-- A change of the watched events and the `update()` that follows it. -/
def updateChannel (conn : TcpConnection) (channel : Channel) : TcpConnection :=
  { conn with channel }.call (.updateChannel channel.events)

def enableWriting (conn : TcpConnection) : TcpConnection :=
  conn.updateChannel conn.channel.enableWriting

def disableWriting (conn : TcpConnection) : TcpConnection :=
  conn.updateChannel conn.channel.disableWriting

def disableAll (conn : TcpConnection) : TcpConnection :=
  conn.updateChannel conn.channel.disableAll

def connectEstablished (tcpConnCallback : TcpConnection → TcpConnection)
    (conn : TcpConnection) : Outcome TcpConnection := do
  assert (conn.state = .connecting)
  let conn := { conn with state := .connected }
  return tcpConnCallback (conn.updateChannel conn.channel.enableReading)

def connectDestroyed (tcpConnCallback : TcpConnection → TcpConnection)
    (conn : TcpConnection) : Outcome TcpConnection := do
  assert (conn.state = .connected)
  let conn := { conn with state := .disconnected }
  return (tcpConnCallback conn.disableAll).call .removeChannel

/-- `closeCallback_` is `TcpServer::removeConnection`. -/
def handleClose (conn : TcpConnection) : Outcome TcpConnection := do
  assert (conn.state = .connected)
  return conn.disableAll.call .closeCallback

def handleError (conn : TcpConnection) : TcpConnection := conn.call .getSocketError

def handleRead (messageCallback : TcpConnection → Outcome TcpConnection)
    (conn : TcpConnection) (result : ReadResult) : Outcome TcpConnection := do
  let (inputBuffer, n) ← conn.inputBuffer.readFd result
  let conn := { conn with inputBuffer }
  if 0 < n then messageCallback conn
  else if n = 0 then conn.handleClose
  else return conn.handleError

/-- The part of `handleWrite` behind a write that took something. -/
def retrieveWritten (conn : TcpConnection) (nWrote : Nat) : Outcome TcpConnection := do
  let outputBuffer ← conn.outputBuffer.retrieve nWrote
  let conn := { conn with outputBuffer }
  if outputBuffer.readableBytes = 0 then return conn.disableWriting else return conn

def handleWrite (conn : TcpConnection) (result : WriteResult) : Outcome TcpConnection :=
  if conn.channel.isWriting then do
    let offered ← Buffer.bytesBetween conn.outputBuffer.buffer conn.outputBuffer.peek
      (conn.outputBuffer.peek + conn.outputBuffer.readableBytes)
    let conn := conn.call (.write offered result)
    if 0 < result.nWrote then conn.retrieveWritten result.nWrote else return conn
  else return conn

def shutdownInLoop (conn : TcpConnection) : TcpConnection :=
  if conn.channel.isWriting then conn
  else conn.call (.shutdown conn.outputBuffer.readableBytes)

/-- The part of `sendInLoop` behind the direct write. -/
def queueRest (conn : TcpConnection) (messages : Bytes) (nWrote : Nat) : Outcome TcpConnection :=
  if nWrote < messages.length then do
    let outputBuffer ← conn.outputBuffer.append (messages.drop nWrote)
    let conn := { conn with outputBuffer }
    if conn.channel.isWriting then return conn
    else
      let conn := conn.enableWriting
      if conn.state = .disconnetcing then return conn.shutdownInLoop else return conn
  else return conn

/-- `result` is what the direct write would report; it is not looked at when
earlier bytes are still waiting. -/
def sendInLoop (conn : TcpConnection) (messages : Bytes) (result : WriteResult) :
    Outcome TcpConnection :=
  if !conn.channel.isWriting ∧ conn.outputBuffer.readableBytes = 0 then
    (conn.call (.write messages result)).queueRest messages result.nWrote
  else conn.queueRest messages 0

def send (conn : TcpConnection) (messages : Bytes) (result : WriteResult) :
    Outcome TcpConnection :=
  let conn := conn.call (.send messages)
  if conn.state = .connected then conn.sendInLoop messages result else return conn

def shutdown (conn : TcpConnection) : TcpConnection := conn.shutdownInLoop

/-- The test of `closeConnection` and of `closeConnectionInLoop`. -/
def canClose (conn : TcpConnection) : Bool := conn.state = .connected ∨ conn.state = .disconnetcing

/-- `closeConnection`, before it queues `closeConnectionInLoop`. -/
def closeConnection (conn : TcpConnection) : TcpConnection :=
  if conn.canClose then { conn with state := .disconnetcing } else conn

def closeConnectionInLoop (conn : TcpConnection) : Outcome TcpConnection :=
  if conn.canClose then conn.handleClose else return conn

end TcpConnection

end NutServer.Net
