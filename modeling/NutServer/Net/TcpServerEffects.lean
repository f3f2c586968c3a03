import NutServer.Net.TcpServerProperties

/-! The effects that the callbacks, the functors and the calls of the
application can have on a server. -/

set_option autoImplicit false

namespace NutServer.Net

/-- A connection after a member function that goes on with it. -/
structure Connection.Kept (old new : Connection) (made : List Call) : Prop where
  name : new.name = old.name
  alive : new.alive = true
  state : new.conn.state = old.conn.state
  calls : new.conn.calls = old.conn.calls ++ made
  goesOn : ∀ call ∈ made, call.isEnding = false
  buffered : new.conn.Buffered
  silent : made.any Call.isUpdate = false → new.conn.channel = old.conn.channel
  updates : made.any Call.isUpdate = true → new.conn.channel.index ≠ -1

/-- A destroyed connection is in state `Disconnected` and watches for nothing. -/
structure Connection.Sane (connection : Connection) : Prop where
  ended : connection.destroyed = true ↔ connection.conn.state = .disconnected
  idle : connection.destroyed = true → connection.conn.channel.events = Channel.noneEvent
  buffered : connection.conn.Buffered

theorem Connection.Sane.quiet {connection : Connection} (sane : connection.Sane)
    (gone : connection.destroyed = true) : connection.conn.channel.isWriting = false := by
  simp [Channel.isWriting, sane.idle gone, Channel.noneEvent]

namespace TcpServer

/-- The poller follows the living channels, and callbacks come to connections
that `connectDestroyed` has not reached. -/
structure Sound (server : TcpServer) : Prop where
  tracks : server.epoller.Tracks server.channels
  sane : ∀ (id : Nat) (connection : Connection), server.conns[id]? = some connection → connection.Sane
  agenda : ∀ id callback, (.connection id, callback) ∈ server.agenda →
    ∃ connection, server.conns[id]? = some connection ∧ connection.alive = true ∧ connection.destroyed = false
  handling : server.agenda ≠ [] → server.loop.phase = .handlers
  held : ∀ func ∈ server.loop.waiting ++ server.callers.map Prod.snd, ∀ id, func.target = some id →
    server.isAlive id = true

inductive Effect where
  | keeps (id : Nat)
  | closes (id : Nat)
  | destroys (id : Nat)
  | accepts
  | rests
  deriving DecidableEq, Repr

def callbackEffect (reports : Reports) : Watched → Channel.Callback → Effect
  | .connection id, .close => .closes id
  | .connection id, .read => if reports.read = .received [] then .closes id else .keeps id
  | .connection id, .error | .connection id, .write => .keeps id
  | .acceptor, .read => if reports.accepted.isSome then .accepts else .rests
  | _, _ => .rests

def functorEffect (server : TcpServer) : PendingFunctor → Effect
  | .user => .rests
  | .sendInLoop id _ | .shutdownInLoop id => .keeps id
  | .closeConnectionInLoop id =>
      if (server.conns[id]?).any fun connection => connection.conn.canClose then .closes id else .keeps id
  | .connectDestroyed id => .destroys id

/-- What comes of a call into the server. Where `revives` is set, the channel of
a destroyed connection is updated. -/
inductive Does (server : TcpServer) (revives : Bool) (effect : Effect) (outcome : Outcome TcpServer) : Prop where
  | kept (id : Nat) (old new : Connection) (made : List Call) (epoller : Epoller Watched)
      (is : effect = .keeps id)
      (found : server.conns[id]? = some old) (alive : old.alive = true) (kept : old.Kept new made)
      (tracks : epoller.Tracks (Function.update server.channels (.connection id) (some new.conn.channel)))
      (quiet : old.destroyed = true → made.any Call.isUpdate = revives)
      (dead : revives = true → old.destroyed = true)
      (result : outcome = .ok ({ server with epoller }.store id new))
  | closes (id : Nat) (old : Connection) (conn : TcpConnection) (index : Int) (epoller : Epoller Watched)
      (is : effect = .closes id)
      (found : server.conns[id]? = some old) (alive : old.alive = true) (calls : conn.calls = old.conn.calls)
      (state : conn.state = old.conn.state) (buffered : conn.Buffered) (known : index ≠ -1)
      (tracks : epoller.Tracks
        (Function.update server.channels (.connection id) (some (closing conn index).channel)))
      (calm : revives = false)
      (result : outcome =
        if old.conn.state = .connected ∧ old.name ∈ server.connections then
          .ok ({ server with
            epoller
            connections := server.connections.erase old.name
            loop := server.loop.queueInLoop (.connectDestroyed id) }.store id { old with conn := closing conn index })
        else .error .assertion)
  | destroys (id : Nat) (old : Connection) (epoller : Epoller Watched) (is : effect = .destroys id)
      (found : server.conns[id]? = some old) (alive : old.alive = true)
      (tracks : epoller.Tracks
        (Function.update server.channels (.connection id) (some (destroyed old.conn).channel)))
      (idle : server.agenda = []) (calm : revives = false)
      (result : outcome =
        if old.conn.state = .connected then
          .ok ({ server with epoller }.store id { old with conn := destroyed old.conn })
        else .error .assertion)
  | accepts (conn : TcpConnection) (epoller : Epoller Watched) (is : effect = .accepts) (known : conn.channel.index ≠ -1)
      (state : conn.state = .connected) (calls : ∃ events, conn.calls = [.updateChannel events])
      (buffered : conn.Buffered)
      (tracks : epoller.Tracks
        (Function.update server.channels (.connection server.conns.length) (some conn.channel)))
      (calm : revives = false)
      (result : outcome = .ok { server with
        nextConnId := increment server.nextConnId
        connections := server.connections.insert (server.name ++ "#" ++ server.nextConnId.repr) server.conns.length
        conns := server.conns ++ [⟨server.name ++ "#" ++ server.nextConnId.repr, conn, true⟩]
        epoller })
  | rests (loop : EventLoop PendingFunctor) (is : effect = .rests) (same : EventLoop.SameQueue server.loop loop)
      (calm : revives = false) (result : outcome = .ok { server with loop })

variable {server next : TcpServer} {id : Nat} {old connection : Connection} {conn : TcpConnection}
  {body : TcpConnection → Outcome TcpConnection} {made : List Call} {result : WriteResult} {reports : Reports}

private theorem does_kept (body : TcpConnection → Outcome TcpConnection) (sound : server.Sound)
    (found : server.conns[id]? = some old) (alive : old.alive = true)
    (ran : body old.conn = .ok conn) (kept : old.conn.Kept conn made) {revives : Bool}
    (quiet : old.destroyed = true → made.any Call.isUpdate = revives)
    (dead : revives = true → old.destroyed = true) : server.Does revives (.keeps id) (server.inConnection id body) := by
  obtain ⟨epoller, channel, performed, tracks, -, silent, updates⟩ :=
    inConnection_kept sound.tracks found alive ran kept.calls kept.goesOn
  exact .kept id old { old with conn := { conn with channel } } made epoller rfl found alive
    ⟨rfl, alive, kept.state, kept.calls, kept.goesOn,
      ⟨kept.input, kept.output⟩, silent, updates⟩ tracks quiet dead performed

private theorem does_handleClose (body : TcpConnection → Outcome TcpConnection) (conn : TcpConnection)
    (sound : server.Sound) (found : server.conns[id]? = some old) (alive : old.alive = true)
    (calls : conn.calls = old.conn.calls) (channel : conn.channel = old.conn.channel)
    (state : conn.state = old.conn.state) (buffered : conn.Buffered) (closes : body old.conn = conn.handleClose) :
    server.Does false (.closes id) (server.inConnection id body) := by
  obtain ⟨epoller, index, known, tracks, performed⟩ :=
    inConnection_closing sound.tracks found alive calls channel closes
  rw [state] at performed
  exact .closes id old conn index epoller rfl found alive calls state buffered known tracks rfl performed

private theorem does_connectDestroyed (sound : server.Sound) (found : server.conns[id]? = some old)
    (alive : old.alive = true) (idle : server.agenda = []) :
    server.Does false (.destroys id) (server.inConnection id (TcpConnection.connectDestroyed fun conn => conn)) := by
  obtain ⟨epoller, tracks, performed⟩ := inConnection_connectDestroyed sound.tracks found alive
  exact .destroys id old epoller rfl found alive tracks idle rfl performed

private theorem does_newConnection (sound : server.Sound) {sockfd : Nat} (fresh : server.isFresh sockfd = true) :
    server.Does false .accepts (server.newConnection sockfd) := by
  obtain ⟨epoller, conn, known, -, state, calls, buffered, tracks, performed⟩ :=
    newConnection_spec sound.tracks fresh
  exact .accepts conn epoller rfl known state calls buffered tracks rfl performed

private theorem does_nothing (server : TcpServer) : server.Does false .rests (.ok server) :=
  .rests server.loop rfl ⟨rfl, rfl, rfl, rfl⟩ rfl rfl

theorem callback_does (reports : Reports) (watched : Watched) (callback : Channel.Callback) (sound : server.Sound)
    (living : ∀ id, watched = .connection id →
      ∃ connection, server.conns[id]? = some connection ∧ connection.alive = true ∧ connection.destroyed = false)
    (honest : server.honest reports (watched, callback) = true) :
    server.Does false (callbackEffect reports watched callback) (server.callback reports watched callback) := by
  cases watched with
  | timer => cases callback <;> exact does_nothing server
  | wakeup =>
      cases callback with
      | read => exact .rests _ rfl (EventLoop.handleRead_same server.loop) rfl rfl
      | close | error | write => exact does_nothing server
  | acceptor =>
      cases callback with
      | read =>
          cases accepted : reports.accepted with
          | none =>
              simp only [TcpServer.callback, callbackEffect, accepted]
              exact does_nothing server
          | some connfd =>
              simp only [TcpServer.callback, callbackEffect, accepted]
              simp only [TcpServer.honest, accepted, Option.all_some] at honest
              exact does_newConnection sound honest
      | close | error | write => exact does_nothing server
  | connection id =>
      obtain ⟨old, found, alive, living⟩ := living id rfl
      have buffered := (sound.sane id old found).buffered
      have notDestroyed : ∀ {made : List Call}, old.destroyed = true → made.any Call.isUpdate = false := by
        intro made destroyed
        cases living.symm.trans destroyed
      have noRevival : false = true → old.destroyed = true := fun impossible => by cases impossible
      cases callback with
      | close =>
          exact does_handleClose TcpConnection.handleClose old.conn sound found alive rfl rfl rfl buffered rfl
      | error =>
          have kept : old.conn.Kept old.conn.handleError [.getSocketError] := buffered.called rfl
          exact does_kept (fun conn => return conn.handleError) sound found alive rfl kept notDestroyed noRevival
      | write =>
          simp only [TcpServer.honest, found, Option.all_some, decide_eq_true_eq] at honest
          obtain ⟨conn, made, written, kept⟩ := TcpConnection.handleWrite_kept buffered honest
          exact does_kept (fun conn => conn.handleWrite reports.write) sound found alive written kept notDestroyed
            noRevival
      | read =>
          simp only [TcpServer.honest, found, Option.all_some, decide_eq_true_eq] at honest
          cases TcpConnection.handleRead_or_closes buffered honest with
          | inl goesOn =>
              obtain ⟨some, conn, made, read, kept⟩ := goesOn
              rw [callbackEffect, if_neg some]
              exact does_kept (fun conn => conn.handleRead (fun conn => return conn) reports.read) sound found alive
                read kept notDestroyed noRevival
          | inr closes =>
              obtain ⟨none, inputBuffer, valid, closes⟩ := closes
              rw [callbackEffect, if_pos none]
              exact does_handleClose (fun conn => conn.handleRead (fun conn => return conn) reports.read)
                { old.conn with inputBuffer } sound found alive rfl rfl rfl ⟨valid, buffered.output⟩ closes

/-- A functor updates a destroyed connection exactly if it is a `sendInLoop`
that leaves something to write. -/
def revives (server : TcpServer) (result : WriteResult) : PendingFunctor → Bool
  | .sendInLoop id messages => (server.conns[id]?).any fun connection =>
      connection.destroyed && connection.conn.leaves messages result
  | .user | .shutdownInLoop _ | .closeConnectionInLoop _ | .connectDestroyed _ => false

theorem apply_does (sound : server.Sound) (func : PendingFunctor)
    (living : ∀ id, func.target = some id → server.isAlive id = true) (idle : server.agenda = []) :
    server.Does (server.revives result func) (server.functorEffect func) (server.apply result func) := by
  have target : ∀ id, func.target = some id →
      ∃ connection, server.conns[id]? = some connection ∧ connection.alive = true := by
    intro id isTarget
    exact (Option.any_eq_true _ _).mp (living id isTarget)
  cases func with
  | user => exact does_nothing server
  | connectDestroyed id =>
      obtain ⟨old, found, alive⟩ := target id rfl
      exact does_connectDestroyed sound found alive idle
  | shutdownInLoop id =>
      obtain ⟨old, found, alive⟩ := target id rfl
      obtain ⟨made, kept, silent⟩ := TcpConnection.shutdownInLoop_kept (sound.sane id old found).buffered
      exact does_kept (fun conn => return conn.shutdownInLoop) sound found alive rfl kept (fun _ => silent)
        (fun impossible => by cases impossible)
  | closeConnectionInLoop id =>
      obtain ⟨old, found, alive⟩ := target id rfl
      have buffered := (sound.sane id old found).buffered
      cases open_ : old.conn.canClose with
      | true =>
          have effect : server.functorEffect (.closeConnectionInLoop id) = .closes id := by
            simp [functorEffect, found, open_]
          rw [effect]
          exact does_handleClose TcpConnection.closeConnectionInLoop old.conn sound found alive rfl rfl rfl buffered
            (by rw [TcpConnection.closeConnectionInLoop, if_pos open_])
      | false =>
          have effect : server.functorEffect (.closeConnectionInLoop id) = .keeps id := by
            simp [functorEffect, found, open_]
          rw [effect]
          refine does_kept TcpConnection.closeConnectionInLoop sound found alive ?_ buffered.unchanged
            (fun _ => rfl) (fun impossible => by cases impossible)
          rw [TcpConnection.closeConnectionInLoop, open_]
          rfl
  | sendInLoop id messages =>
      obtain ⟨old, found, alive⟩ := target id rfl
      have sane := sound.sane id old found
      cases gone : old.destroyed with
      | true =>
          obtain ⟨conn, made, sent, kept, updates⟩ :=
            TcpConnection.sendInLoop_quiet sane.buffered (sane.quiet gone) messages result
          have revival : server.revives result (.sendInLoop id messages) = old.conn.leaves messages result := by
            simp [revives, found, gone]
          rw [revival]
          exact does_kept (fun conn => conn.sendInLoop messages result) sound found alive sent kept
            (fun _ => updates) (fun _ => gone)
      | false =>
          obtain ⟨conn, made, sent, kept⟩ := TcpConnection.sendInLoop_kept sane.buffered messages result
          have revival : server.revives result (.sendInLoop id messages) = false := by
            simp [revives, found, gone]
          rw [revival]
          exact does_kept (fun conn => conn.sendInLoop messages result) sound found alive sent kept
            (fun destroyed => by cases gone.symm.trans destroyed) (fun impossible => by cases impossible)

theorem send_does (sound : server.Sound) (living : server.isAlive id = true) (messages : Bytes) :
    server.Does false (.keeps id) (server.inConnection id fun conn => conn.send messages result) := by
  obtain ⟨old, found, alive⟩ := (Option.any_eq_true _ _).mp living
  have sane := sound.sane id old found
  obtain ⟨conn, made, sent, kept, silent⟩ := TcpConnection.send_kept sane.buffered messages result
  refine does_kept _ sound found alive sent kept (fun gone => ?_) (fun impossible => by cases impossible)
  have notConnected : old.conn.state ≠ .connected := by
    rw [sane.ended.mp gone]
    decide
  rw [silent notConnected]
  rfl

theorem shutdown_does (sound : server.Sound) (living : server.isAlive id = true) :
    server.Does false (.keeps id) (server.inConnection id fun conn => return conn.shutdown) := by
  obtain ⟨old, found, alive⟩ := (Option.any_eq_true _ _).mp living
  obtain ⟨made, kept, silent⟩ := TcpConnection.shutdownInLoop_kept (sound.sane id old found).buffered
  exact does_kept (fun conn => return conn.shutdown) sound found alive rfl kept (fun _ => silent)
    (fun impossible => by cases impossible)

theorem closeConnection_spec (found : server.conns[id]? = some old) (alive : old.alive = true) :
    server.closeConnection id = .ok (server.store id { old with conn := old.conn.closeConnection }) := by
  have calls : old.conn.closeConnection.calls = old.conn.calls ++ [] := by
    rw [TcpConnection.closeConnection, List.append_nil]
    split_ifs <;> rfl
  have channel : old.conn.closeConnection.channel = old.conn.channel := by
    rw [TcpConnection.closeConnection]
    split_ifs <;> rfl
  have ran : (fun conn : TcpConnection => (return conn.closeConnection : Outcome TcpConnection)) old.conn =
      .ok old.conn.closeConnection := rfl
  rw [closeConnection, inConnection_eq found alive ran calls, obeyAll, ← channel]
  rfl

end TcpServer

end NutServer.Net
