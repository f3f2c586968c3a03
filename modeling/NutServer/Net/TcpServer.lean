import NutServer.Net.Epoller
import NutServer.Net.EventLoop
import NutServer.Net.TcpConnection

/-!
# The server

`nut::TcpServer` on its one loop, with all connections it has accepted, the
poller, the loop and the calls of other threads. A pointer to a connection is
its number in the order of the accepts.
-/

set_option autoImplicit false

namespace NutServer.Net

/-- The owners of the channels that the loop watches. -/
inductive Watched where
  | wakeup
  | timer
  | acceptor
  | connection (id : Nat)
  deriving DecidableEq, Repr

inductive PendingFunctor where
  /-- One of the application; what it calls are events of their own. -/
  | user
  | sendInLoop (id : Nat) (messages : Bytes)
  | shutdownInLoop (id : Nat)
  | closeConnectionInLoop (id : Nat)
  | connectDestroyed (id : Nat)
  deriving DecidableEq, Repr

def PendingFunctor.target : PendingFunctor → Option Nat
  | .user => none
  | .sendInLoop id _ | .shutdownInLoop id | .closeConnectionInLoop id | .connectDestroyed id => some id

structure Connection where
  name : String
  conn : TcpConnection
  /-- Not yet deleted. -/
  alive : Bool

/-- The descriptors that are open from the start. -/
structure Residents where
  timer : Nat
  wakeup : Nat
  acceptor : Nat
  distinct : [timer, wakeup, acceptor].Nodup

/-- A call of the application. -/
inductive Request where
  | send (id : Nat) (messages : Bytes)
  | shutdown (id : Nat)
  | closeConnection (id : Nat)
  | queueInLoop
  deriving DecidableEq, Repr

def Request.target : Request → Option Nat
  | .send id _ | .shutdown id | .closeConnection id => some id
  | .queueInLoop => none

/-- What the system calls of the next callback report; each callback looks at its own. -/
structure Reports where
  read : ReadResult
  write : WriteResult
  accepted : Option Nat
  deriving DecidableEq, Repr

structure TcpServer where
  name : String
  nextConnId : Int
  connections : Std.ExtTreeMap String Nat
  residents : Residents
  /-- All connections that were accepted. -/
  conns : List Connection
  epoller : Epoller Watched
  loop : EventLoop PendingFunctor
  /-- The callbacks of `activeChannels_` that are still to come. -/
  agenda : List (Watched × Channel.Callback)
  /-- Other threads that have looked at the state and not yet pushed their functor. -/
  callers : List (Nat × PendingFunctor)

namespace TcpServer

/-- `++nextConnId_` on a 32-bit `int`. Past its end, where the language leaves the
result open, it goes round here; what needs the names apart bounds the accepts. -/
def increment (nextConnId : Int) : Int := (BitVec.ofInt 32 (nextConnId + 1)).toInt

/-- The constructors of the loop and `start()`: three channels are enabled. -/
def start (name : String) (residents : Residents) (runingPendingFunctors : Bool) : Outcome TcpServer := do
  let (epoller, _) ← Epoller.new.updateChannel Watched.timer (Channel.new residents.timer).enableReading
  let (epoller, _) ← epoller.updateChannel Watched.wakeup (Channel.new residents.wakeup).enableReading
  let (epoller, _) ← epoller.updateChannel Watched.acceptor (Channel.new residents.acceptor).enableReading
  return {
    name
    nextConnId := 1
    connections := ∅
    residents
    conns := []
    epoller
    loop := EventLoop.new runingPendingFunctors
    agenda := []
    callers := [] }

def queueInLoop (server : TcpServer) (func : PendingFunctor) : TcpServer :=
  { server with loop := server.loop.queueInLoop func }

def removeConnectionInLoop (server : TcpServer) (id : Nat) (connName : String) : Outcome TcpServer := do
  assert (connName ∈ server.connections)
  return { server with connections := server.connections.erase connName }.queueInLoop (.connectDestroyed id)

/-- `removeConnection` in the loop thread. -/
def removeConnection (server : TcpServer) (id : Nat) : Outcome TcpServer :=
  match server.conns[id]? with
  | some connection => server.removeConnectionInLoop id connection.name
  | none => throw .dangling

/-- What the loop and the server do at a call of a connection. -/
def obey (server : TcpServer) (id : Nat) (channel : Channel) : Call → Outcome (TcpServer × Channel)
  | .updateChannel events => do
      let (epoller, channel) ← server.epoller.updateChannel (.connection id) { channel with events }
      return ({ server with epoller }, channel)
  | .removeChannel => do
      let (epoller, channel) ← server.epoller.removeChannel (.connection id) channel
      return ({ server with epoller }, channel)
  | .closeCallback => return (← server.removeConnection id, channel)
  | .send _ | .write _ _ | .shutdown _ | .getSocketError => return (server, channel)

def obeyAll (server : TcpServer) (id : Nat) (channel : Channel) : List Call → Outcome (TcpServer × Channel)
  | [] => return (server, channel)
  | call :: rest => do
      let (server, channel) ← server.obey id channel call
      server.obeyAll id channel rest

def store (server : TcpServer) (id : Nat) (connection : Connection) : TcpServer :=
  { server with conns := server.conns.set id connection }

/-- A member function of a connection. No such function looks at what the calls
it makes return, so they are obeyed behind it, in their order. -/
def inConnection (server : TcpServer) (id : Nat) (body : TcpConnection → Outcome TcpConnection) :
    Outcome TcpServer :=
  match server.conns[id]? with
  | none => throw .dangling
  | some connection =>
      if connection.alive then do
        let conn ← body connection.conn
        let (server, channel) ← server.obeyAll id connection.conn.channel
          (conn.calls.drop connection.conn.calls.length)
        return server.store id { connection with conn := { conn with channel } }
      else throw .dangling

/-- `connectionCallback_` ends the function: what the application does in it are
events of their own. Only a counter that has gone round finds its name taken. -/
def newConnection (server : TcpServer) (sockfd : Nat) : Outcome TcpServer :=
  let connName := server.name ++ "#" ++ server.nextConnId.repr
  let id := server.conns.length
  let connection : Connection := { name := connName, conn := TcpConnection.new sockfd, alive := true }
  { server with
    nextConnId := increment server.nextConnId
    connections := server.connections.insert connName id
    conns := server.conns ++ [connection] }.inConnection id
      (TcpConnection.connectEstablished fun conn => conn)

/-- The three channels of the loop itself have read callbacks only. -/
def callback (server : TcpServer) (reports : Reports) : Watched → Channel.Callback → Outcome TcpServer
  | .connection id, .close => server.inConnection id TcpConnection.handleClose
  | .connection id, .error => server.inConnection id fun conn => return conn.handleError
  | .connection id, .read => server.inConnection id fun conn => conn.handleRead (fun conn => return conn) reports.read
  | .connection id, .write => server.inConnection id fun conn => conn.handleWrite reports.write
  | .acceptor, .read =>
      match reports.accepted with
      | some connfd => server.newConnection connfd
      | none => return server
  | .wakeup, .read => return { server with loop := server.loop.handleRead }
  | _, _ => return server

/-- The call of a functor. -/
def apply (server : TcpServer) (result : WriteResult) : PendingFunctor → Outcome TcpServer
  | .user => return server
  | .sendInLoop id messages => server.inConnection id fun conn => conn.sendInLoop messages result
  | .shutdownInLoop id => server.inConnection id fun conn => return conn.shutdownInLoop
  | .closeConnectionInLoop id => server.inConnection id TcpConnection.closeConnectionInLoop
  | .connectDestroyed id => server.inConnection id (TcpConnection.connectDestroyed fun conn => conn)

/-- What a request queues, by the state it finds. -/
def queues (server : TcpServer) : Request → Option PendingFunctor
  | .send id messages => do
      let connection ← server.conns[id]?
      if connection.conn.connected then some (.sendInLoop id messages) else none
  | .shutdown id => some (.shutdownInLoop id)
  | .closeConnection id => do
      let connection ← server.conns[id]?
      if connection.conn.canClose then some (.closeConnectionInLoop id) else none
  | .queueInLoop => some .user

def closeConnection (server : TcpServer) (id : Nat) : Outcome TcpServer :=
  server.inConnection id fun conn => return conn.closeConnection

/-- A request in the loop thread. -/
def request (server : TcpServer) (result : WriteResult) : Request → Outcome TcpServer
  | .send id messages => server.inConnection id fun conn => conn.send messages result
  | .shutdown id => server.inConnection id fun conn => return conn.shutdown
  | .closeConnection id => do
      let closed ← server.closeConnection id
      match server.queues (.closeConnection id) with
      | some func => return closed.queueInLoop func
      | none => return closed
  | .queueInLoop => return server.queueInLoop .user

/-- What a request writes in the thread of its caller. -/
def mark (server : TcpServer) : Request → Outcome TcpServer
  | .closeConnection id => server.closeConnection id
  | .send _ _ | .shutdown _ | .queueInLoop => return server

/-- A request in another thread, up to the push of its functor. -/
def foreignRequest (server : TcpServer) (thread : Nat) (op : Request) : Outcome TcpServer := do
  let marked ← server.mark op
  match server.queues op with
  | some func => return { marked with callers := (thread, func) :: marked.callers }
  | none => return marked

/-- The last reference to a connection is dropped: its descriptor is closed,
which takes it out of the epoll set. -/
def release (server : TcpServer) (id : Nat) : Outcome TcpServer :=
  match server.conns[id]? with
  | none => throw .dangling
  | some connection => return { server with
      conns := server.conns.set id { connection with alive := false }
      epoller := { server.epoller with interest := server.epoller.interest.erase connection.conn.channel.fd } }

inductive Event where
  /-- A step of the loop, or of a thread at its eventfd, that calls nothing of the server. -/
  | loop (event : EventLoop.Event PendingFunctor)
  /-- `epoller_->poll` returns with these descriptors and their `revents`. -/
  | poll (ready : List (Nat × BitVec 32))
  /-- The next callback of `activeChannels_`. -/
  | handle (reports : Reports)
  /-- The next functor of `doPendingFunctors`, or its end. -/
  | call (result : WriteResult)
  /-- A call of the application in the loop thread, from a callback or a functor. -/
  | request (op : Request) (result : WriteResult)
  | foreign (thread : Nat) (op : Request)
  /-- The critical section of `queueInLoop` in that thread. -/
  | push (thread : Nat)
  | release (id : Nat)
  deriving DecidableEq, Repr

end TcpServer

/-- `connectDestroyed` has run. -/
def Connection.destroyed (connection : Connection) : Bool := connection.conn.calls.contains .removeChannel

namespace TcpServer

/-- `fillActiveChannels`, and the callbacks that the handlers will call. -/
def activeCallbacks (server : TcpServer) (ready : List (Nat × BitVec 32)) : List (Watched × Channel.Callback) :=
  ready.flatMap fun (fd, revents) =>
    match server.epoller.interest[fd]? with
    | some event => (Channel.handler revents).map fun callback => (event.ptr, callback)
    | none => []

/-- The functor that `call` runs next. -/
def nextFunctor (server : TcpServer) : Option PendingFunctor :=
  match server.loop.phase with
  | .running index => server.loop.tempFunctors[index]?
  | _ => none

def perform (server : TcpServer) : Event → Outcome TcpServer
  | .loop event => return { server with loop := ← server.loop.perform event }
  | .poll ready => return { server with
      loop := ← server.loop.perform .pollReturns
      agenda := server.activeCallbacks ready }
  | .handle reports =>
      match server.agenda with
      | [] => return server
      | (watched, callback) :: rest => { server with agenda := rest }.callback reports watched callback
  | .call result => do
      let called := { server with loop := ← server.loop.perform .call }
      match server.nextFunctor with
      | some func => called.apply result func
      | none => return called
  | .request op result => server.request result op
  | .foreign thread op => server.foreignRequest thread op
  | .push thread =>
      match server.callers.lookup thread with
      | some func => return { server with
          loop := ← server.loop.perform (.push thread func)
          callers := server.callers.filter fun caller => caller.1 ≠ thread }
      | none => return server
  | .release id => server.release id

def isAlive (server : TcpServer) (id : Nat) : Bool :=
  (server.conns[id]?).any fun connection => connection.alive

def isDestroyed (server : TcpServer) (id : Nat) : Bool :=
  (server.conns[id]?).any fun connection => connection.destroyed

/-- Some functor or caller may still use the connection. -/
def isHeld (server : TcpServer) (id : Nat) : Bool :=
  (server.loop.waiting ++ server.callers.map Prod.snd).any fun func => func.target = some id

/-- No open descriptor. -/
def isFresh (server : TcpServer) (fd : Nat) : Bool :=
  fd ∉ [server.residents.timer, server.residents.wakeup, server.residents.acceptor] ∧
    server.conns.all fun connection => connection.alive → connection.conn.channel.fd ≠ fd

/-- `readv` and `write` report no more than there was room for or was offered,
and `accept` a descriptor that was not open. -/
def honest (server : TcpServer) (reports : Reports) : Watched × Channel.Callback → Bool
  | (.connection id, .read) => (server.conns[id]?).all fun connection =>
      reports.read.size ≤ connection.conn.inputBuffer.writableBytes + Buffer.extrabufSize
  | (.connection id, .write) => (server.conns[id]?).all fun connection =>
      connection.conn.channel.isWriting →
        reports.write.nWrote ≤ connection.conn.outputBuffer.readableBytes
  | (.acceptor, .read) => reports.accepted.all server.isFresh
  | _ => true

/-- Whether the step is the next one of some thread, with system calls that
report what they can. A functor binds a plain pointer: whoever queued one of a
connection is taken to keep the connection until the functor has run. -/
def Event.Enabled (server : TcpServer) : Event → Prop
  | .loop event => event.isPlain = true ∧ event.Enabled server.loop ∧
      (event = .handlersDone → server.agenda = [])
  | .poll ready => server.loop.phase = .polling ∧ (ready.map Prod.fst).Nodup ∧
      ∀ entry ∈ ready, entry.1 ∈ server.epoller.interest
  | .handle reports => server.loop.phase = .handlers ∧ server.agenda ≠ [] ∧
      ∀ entry ∈ server.agenda.head?, server.honest reports entry = true
  | .call _ => server.loop.phase.isRunning = true
  | .request op _ => server.loop.phase.queues = true ∧ ∀ id ∈ op.target, server.isAlive id = true
  | .foreign thread op => thread ∉ server.callers.map Prod.fst ∧ thread ∉ server.loop.wakers ∧
      ∀ id ∈ op.target, server.isAlive id = true
  | .push thread => thread ∈ server.callers.map Prod.fst ∧ thread ∉ server.loop.wakers
  | .release id => server.isAlive id = true ∧ server.isDestroyed id = true ∧ server.isHeld id = false

instance decidableEnabled (server : TcpServer) : ∀ event : Event, Decidable (event.Enabled server)
  | .loop event => inferInstanceAs (Decidable (event.isPlain = true ∧ event.Enabled server.loop ∧
      (event = .handlersDone → server.agenda = [])))
  | .poll ready => inferInstanceAs (Decidable (server.loop.phase = .polling ∧ (ready.map Prod.fst).Nodup ∧
      ∀ entry ∈ ready, entry.1 ∈ server.epoller.interest))
  | .handle reports => inferInstanceAs (Decidable (server.loop.phase = .handlers ∧ server.agenda ≠ [] ∧
      ∀ entry ∈ server.agenda.head?, server.honest reports entry = true))
  | .call _ => inferInstanceAs (Decidable (server.loop.phase.isRunning = true))
  | .request op _ => inferInstanceAs (Decidable (server.loop.phase.queues = true ∧
      ∀ id ∈ op.target, server.isAlive id = true))
  | .foreign thread op => inferInstanceAs (Decidable (thread ∉ server.callers.map Prod.fst ∧
      thread ∉ server.loop.wakers ∧ ∀ id ∈ op.target, server.isAlive id = true))
  | .push thread => inferInstanceAs (Decidable (thread ∈ server.callers.map Prod.fst ∧
      thread ∉ server.loop.wakers))
  | .release id => inferInstanceAs (Decidable (server.isAlive id = true ∧ server.isDestroyed id = true ∧
      server.isHeld id = false))

def step (server : TcpServer) (event : Event) : Option TcpServer :=
  if event.Enabled server then (server.perform event).toOption else none

end TcpServer

end NutServer.Net
