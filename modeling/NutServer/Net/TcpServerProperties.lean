import NutServer.Net.EpollerProperties
import NutServer.Net.EventLoopWaiting
import NutServer.Net.TcpConnectionCalls
import NutServer.Net.TcpServer

/-! What a member function of a connection does to the server around it. -/

set_option autoImplicit false

namespace NutServer.Net

namespace TcpServer

def residentChannel (fd : Nat) : Channel := { (Channel.new fd).enableReading with index := 1 }

/-- The channels that exist. -/
def channels (server : TcpServer) : Watched → Option Channel
  | .timer => some (residentChannel server.residents.timer)
  | .wakeup => some (residentChannel server.residents.wakeup)
  | .acceptor => some (residentChannel server.residents.acceptor)
  | .connection id => (server.conns[id]?).bind fun connection =>
      if connection.alive then some connection.conn.channel else none

variable {server next : TcpServer} {id : Nat} {old connection : Connection} {conn : TcpConnection}
  {body : TcpConnection → Outcome TcpConnection} {made : List Call} {channel : Channel}

theorem channels_connection (found : server.conns[id]? = some old) (alive : old.alive = true) :
    server.channels (.connection id) = some old.conn.channel := by
  simp [channels, found, alive]

theorem channels_set (found : server.conns[id]? = some old) (residents : next.residents = server.residents)
    (conns : next.conns = server.conns.set id connection) :
    next.channels = Function.update server.channels (.connection id)
      (if connection.alive then some connection.conn.channel else none) := by
  have inside := (List.getElem?_eq_some_iff.mp found).1
  funext watched
  cases watched with
  | timer | wakeup | acceptor => simp [channels, residents]
  | connection other =>
      by_cases same : other = id
      · subst same
        simp [channels, conns, inside]
      · have apart : Watched.connection other ≠ .connection id := fun equal => same (Watched.connection.inj equal)
        rw [Function.update_of_ne apart]
        simp only [channels, conns, List.getElem?_set_ne (Ne.symm same)]

theorem channels_append (residents : next.residents = server.residents)
    (conns : next.conns = server.conns ++ [connection]) (alive : connection.alive = true) :
    next.channels =
      Function.update server.channels (.connection server.conns.length) (some connection.conn.channel) := by
  funext watched
  cases watched with
  | timer | wakeup | acceptor => simp [channels, residents]
  | connection id =>
      by_cases last : id = server.conns.length
      · subst last
        simp [channels, conns, alive]
      · have apart : Watched.connection id ≠ .connection server.conns.length :=
          fun equal => last (Watched.connection.inj equal)
        rw [Function.update_of_ne apart]
        simp only [channels, conns]
        congr 1
        by_cases before : id < server.conns.length
        · exact List.getElem?_append_left before
        · have beyond : (server.conns ++ [connection]).length ≤ id := by
            rw [List.length_append, List.length_singleton]
            omega
          rw [List.getElem?_eq_none beyond, List.getElem?_eq_none (by omega)]

/-- Calls that end nothing: the poller follows the channel. -/
theorem obeyAll_kept (goesOn : ∀ call ∈ made, call.isEnding = false) {channels : Watched → Option Channel}
    (tracks : server.epoller.Tracks channels) (present : channels (.connection id) = some channel) :
    ∃ epoller changed, server.obeyAll id channel made = .ok ({ server with epoller }, changed) ∧
      epoller.Tracks (Function.update channels (.connection id) (some changed)) ∧
      changed.fd = channel.fd ∧
      (made.any Call.isUpdate = false → changed = channel) ∧
      (made.any Call.isUpdate = true → changed.index ≠ -1) := by
  induction made generalizing server channel channels with
  | nil =>
      refine ⟨server.epoller, channel, rfl, ?_, rfl, fun _ => rfl, ?_⟩
      · rw [Function.update_eq_self_iff.mpr present.symm]
        exact tracks
      · intro updates
        cases updates
  | cons call rest ih =>
      have restGoesOn : ∀ call ∈ rest, call.isEnding = false :=
        fun other member => goesOn other (List.mem_cons_of_mem _ member)
      cases call with
      | send | write | shutdown | getSocketError =>
          obtain ⟨epoller, changed, obeyed, restTracks, fd, silent, updates⟩ := ih restGoesOn tracks present
          exact ⟨epoller, changed, obeyed, restTracks, fd, silent, updates⟩
      | updateChannel events =>
          obtain ⟨middle, index, updated, known, middleTracks⟩ :=
            Epoller.updateChannel_spec { channel with events } tracks present rfl rfl
          let between : TcpServer := { server with epoller := middle }
          have betweenTracks : between.epoller.Tracks _ := middleTracks
          obtain ⟨epoller, changed, obeyed, restTracks, fd, silent, updates⟩ :=
            ih restGoesOn betweenTracks (Function.update_self ..)
          rw [Function.update_idem] at restTracks
          refine ⟨epoller, changed, ?_, restTracks, fd, ?_, fun _ => ?_⟩
          · rw [obeyAll, obey, updated]
            exact obeyed
          · intro quiet
            cases quiet
          · cases later : rest.any Call.isUpdate with
            | true => exact updates later
            | false =>
                rw [silent later]
                exact known
      | removeChannel | closeCallback =>
          have ending := goesOn _ List.mem_cons_self
          cases ending

theorem inConnection_eq (found : server.conns[id]? = some old) (alive : old.alive = true)
    (ran : body old.conn = .ok conn) (calls : conn.calls = old.conn.calls ++ made) :
    server.inConnection id body = server.obeyAll id old.conn.channel made >>= fun result =>
      return result.1.store id { old with conn := { conn with channel := result.2 } } := by
  have drop : conn.calls.drop old.conn.calls.length = made := by rw [calls, List.drop_left]
  rw [inConnection, found]
  simp only [alive, if_true, ran, Outcome.ok_bind, drop]

theorem inConnection_error {fault : Fault} (found : server.conns[id]? = some old) (alive : old.alive = true)
    (failed : body old.conn = .error fault) : server.inConnection id body = .error fault := by
  rw [inConnection, found]
  simp only [alive, if_true, failed]
  rfl

theorem inConnection_kept (tracks : server.epoller.Tracks server.channels)
    (found : server.conns[id]? = some old) (alive : old.alive = true) (ran : body old.conn = .ok conn)
    (calls : conn.calls = old.conn.calls ++ made) (goesOn : ∀ call ∈ made, call.isEnding = false) :
    ∃ epoller channel, server.inConnection id body =
        .ok ({ server with epoller }.store id { old with conn := { conn with channel } }) ∧
      epoller.Tracks (Function.update server.channels (.connection id) (some channel)) ∧
      channel.fd = old.conn.channel.fd ∧
      (made.any Call.isUpdate = false → channel = old.conn.channel) ∧
      (made.any Call.isUpdate = true → channel.index ≠ -1) := by
  obtain ⟨epoller, channel, obeyed, nextTracks, fd, silent, updates⟩ :=
    obeyAll_kept goesOn tracks (channels_connection found alive)
  refine ⟨epoller, channel, ?_, nextTracks, fd, silent, updates⟩
  rw [inConnection_eq found alive ran calls, obeyed]
  rfl

/-- `handleClose`, behind whatever led to it. -/
def closing (conn : TcpConnection) (index : Int) : TcpConnection :=
  { conn.disableAll.call .closeCallback with channel := { conn.channel.disableAll with index } }

theorem inConnection_closing (tracks : server.epoller.Tracks server.channels)
    (found : server.conns[id]? = some old) (alive : old.alive = true) (calls : conn.calls = old.conn.calls)
    (sameChannel : conn.channel = old.conn.channel) (closes : body old.conn = conn.handleClose) :
    ∃ epoller index, index ≠ -1 ∧
      epoller.Tracks (Function.update server.channels (.connection id) (some (closing conn index).channel)) ∧
      server.inConnection id body =
        if conn.state = .connected ∧ old.name ∈ server.connections then
          .ok ({ server with
            epoller
            connections := server.connections.erase old.name
            loop := server.loop.queueInLoop (.connectDestroyed id) }.store id { old with conn := closing conn index })
        else .error .assertion := by
  obtain ⟨epoller, index, updated, known, nextTracks⟩ := Epoller.updateChannel_spec
    old.conn.channel.disableAll tracks (channels_connection found alive) rfl rfl
  refine ⟨epoller, index, known, ?_, ?_⟩
  · simp only [closing, sameChannel]
    exact nextTracks
  by_cases connected : conn.state = .connected
  · have ran : body old.conn = .ok (conn.disableAll.call .closeCallback) := by
      rw [closes, TcpConnection.handleClose, assert_of connected]
      rfl
    have made : (conn.disableAll.call .closeCallback).calls =
        old.conn.calls ++ [.updateChannel Channel.noneEvent, .closeCallback] := by
      rw [← calls]
      exact List.append_assoc ..
    have events : { old.conn.channel with events := Channel.noneEvent } = old.conn.channel.disableAll := rfl
    rw [inConnection_eq found alive ran made, obeyAll, obey, events, updated]
    simp only [Outcome.ok_bind, pure, Except.pure, obeyAll, obey, removeConnection, found, removeConnectionInLoop]
    by_cases listed : old.name ∈ server.connections
    · rw [if_pos ⟨connected, listed⟩, assert_of listed, closing, sameChannel]
      rfl
    · rw [if_neg (fun both => listed both.2), assert, if_neg listed]
      rfl
  · rw [if_neg (fun both => connected both.1)]
    refine inConnection_error found alive ?_
    rw [closes, TcpConnection.handleClose, assert, if_neg connected]
    rfl

/-- `connectDestroyed` of a connection in state `Connected`. -/
def destroyed (conn : TcpConnection) : TcpConnection :=
  { ({ conn with state := .disconnected }.disableAll.call .removeChannel) with
    channel := { conn.channel.disableAll with index := -1 } }

theorem inConnection_connectDestroyed (tracks : server.epoller.Tracks server.channels)
    (found : server.conns[id]? = some old) (alive : old.alive = true) :
    ∃ epoller,
      epoller.Tracks (Function.update server.channels (.connection id) (some (destroyed old.conn).channel)) ∧
      server.inConnection id (TcpConnection.connectDestroyed fun conn => conn) =
        if old.conn.state = .connected then
          .ok ({ server with epoller }.store id { old with conn := destroyed old.conn })
        else .error .assertion := by
  obtain ⟨middle, index, updated, known, middleTracks⟩ := Epoller.updateChannel_spec
    old.conn.channel.disableAll tracks (channels_connection found alive) rfl rfl
  obtain ⟨epoller, removed, nextTracks⟩ :=
    Epoller.removeChannel_spec middleTracks (Function.update_self ..) known rfl
  rw [Function.update_idem] at nextTracks
  refine ⟨epoller, nextTracks, ?_⟩
  by_cases connected : old.conn.state = .connected
  · let conn := ({ old.conn with state := .disconnected }.disableAll.call .removeChannel)
    have ran : TcpConnection.connectDestroyed (fun conn => conn) old.conn = .ok conn := by
      rw [TcpConnection.connectDestroyed, assert_of connected]
      rfl
    have made : conn.calls = old.conn.calls ++ [.updateChannel Channel.noneEvent, .removeChannel] :=
      List.append_assoc ..
    have events : { old.conn.channel with events := Channel.noneEvent } = old.conn.channel.disableAll := rfl
    rw [if_pos connected, inConnection_eq found alive ran made, obeyAll, obey, events, updated]
    simp only [Outcome.ok_bind, pure, Except.pure, obeyAll, obey, removed]
    rfl
  · rw [if_neg connected]
    refine inConnection_error found alive ?_
    rw [TcpConnection.connectDestroyed, assert, if_neg connected]
    rfl

private theorem isFresh_channels {fd : Nat} (fresh : server.isFresh fd = true) :
    ∀ watched found, server.channels watched = some found → found.fd ≠ fd := by
  simp only [isFresh, Bool.decide_and, Bool.and_eq_true, decide_eq_true_eq, List.all_eq_true] at fresh
  obtain ⟨residents, conns⟩ := fresh
  simp only [List.mem_cons, List.not_mem_nil, or_false, not_or] at residents
  intro watched found isFound
  cases watched with
  | timer =>
      cases isFound
      exact Ne.symm residents.1
  | wakeup =>
      cases isFound
      exact Ne.symm residents.2.1
  | acceptor =>
      cases isFound
      exact Ne.symm residents.2.2
  | connection id =>
      obtain ⟨connection, present, isChannel⟩ := Option.bind_eq_some_iff.mp isFound
      split_ifs at isChannel with alive
      cases isChannel
      exact conns connection (List.mem_of_getElem? present) alive

theorem newConnection_spec (tracks : server.epoller.Tracks server.channels) {sockfd : Nat}
    (fresh : server.isFresh sockfd = true) :
    ∃ epoller conn, conn.channel.index ≠ -1 ∧ conn.channel.fd = sockfd ∧ conn.state = .connected ∧
      (∃ events, conn.calls = [.updateChannel events]) ∧ conn.Buffered ∧
      epoller.Tracks (Function.update server.channels (.connection server.conns.length) (some conn.channel)) ∧
      server.newConnection sockfd = .ok { server with
        nextConnId := increment server.nextConnId
        connections := server.connections.insert (server.name ++ "#" ++ server.nextConnId.repr) server.conns.length
        conns := server.conns ++ [⟨server.name ++ "#" ++ server.nextConnId.repr, conn, true⟩]
        epoller } := by
  let connName := server.name ++ "#" ++ server.nextConnId.repr
  let accepted : Connection := { name := connName, conn := TcpConnection.new sockfd, alive := true }
  let entered : TcpServer := { server with
    nextConnId := increment server.nextConnId
    connections := server.connections.insert connName server.conns.length
    conns := server.conns ++ [accepted] }
  have found : entered.conns[server.conns.length]? = some accepted := by simp [entered]
  have appended : entered.conns = server.conns ++ [accepted] := rfl
  have enteredChannels : entered.channels =
      Function.update server.channels (.connection server.conns.length) (some accepted.conn.channel) :=
    channels_append rfl appended rfl
  have joined : entered.epoller.Tracks entered.channels := by
    rw [enteredChannels]
    exact tracks.join (by simp [channels]) rfl (isFresh_channels fresh)
  let established : TcpConnection :=
    { (TcpConnection.new sockfd).updateChannel (Channel.new sockfd).enableReading with state := .connected }
  have ran : TcpConnection.connectEstablished (fun conn => conn) accepted.conn = .ok established := rfl
  have made : established.calls = accepted.conn.calls ++ [.updateChannel established.channel.events] := rfl
  obtain ⟨epoller, channel, performed, nextTracks, fd, -, known⟩ :=
    inConnection_kept joined found rfl ran made (by simp [Call.isEnding])
  rw [enteredChannels, Function.update_idem] at nextTracks
  refine ⟨epoller, { established with channel }, known rfl, fd, rfl, ⟨_, rfl⟩, ?_, nextTracks, ?_⟩
  · exact ⟨Buffer.fresh_valid, Buffer.fresh_valid⟩
  · rw [newConnection]
    refine performed.trans ?_
    simp [store, entered, accepted, connName]

private theorem enable_resident {epoller : Epoller Watched} {channels : Watched → Option Channel} (watched : Watched)
    (fd : Nat) (tracks : epoller.Tracks channels) (present : channels watched = some (Channel.new fd)) :
    ∃ next, epoller.updateChannel watched (Channel.new fd).enableReading = .ok (next, residentChannel fd) ∧
      next.Tracks (Function.update channels watched (some (residentChannel fd))) := by
  obtain ⟨next, index, updated, known, nextTracks⟩ :=
    Epoller.updateChannel_spec (Channel.new fd).enableReading tracks present rfl rfl
  have mirrors := nextTracks.mirrors watched _ (Function.update_self ..)
  have busy : Channel.noneEvent ||| Channel.readEvent ≠ Channel.noneEvent := by decide
  have one : index = 1 := mirrors.index_one known busy
  subst one
  exact ⟨next, updated, nextTracks⟩

theorem start_spec (name : String) (residents : Residents) (runing : Bool) :
    ∃ server, start name residents runing = .ok server ∧ server.epoller.Tracks server.channels ∧
      server.nextConnId = 1 ∧ server.connections = ∅ ∧ server.conns = [] ∧
      server.loop = EventLoop.new runing ∧ server.agenda = [] ∧ server.callers = [] := by
  let before : Watched → Option Channel
    | .timer => some (Channel.new residents.timer)
    | .wakeup => some (Channel.new residents.wakeup)
    | .acceptor => some (Channel.new residents.acceptor)
    | .connection _ => none
  have distinct := residents.distinct
  simp only [List.nodup_cons, List.mem_cons, List.not_mem_nil, or_false, not_or] at distinct
  obtain ⟨⟨timerWakeup, timerAcceptor⟩, wakeupAcceptor, -⟩ := distinct
  have initial : (Epoller.new : Epoller Watched).Tracks before := by
    refine Epoller.new_tracks ?_ ?_
    · intro pointer other channel found isChannel isFound same
      cases pointer with
      | timer | wakeup | acceptor =>
          cases isChannel
          cases other with
          | timer | wakeup | acceptor =>
              cases isFound
              simp only [Channel.new] at same
              first
              | rfl
              | omega
          | connection => cases isFound
      | connection => cases isChannel
    · intro pointer channel isChannel
      cases pointer with
      | timer | wakeup | acceptor =>
          cases isChannel
          rfl
      | connection => cases isChannel
  obtain ⟨first, timerDone, firstTracks⟩ :=
    enable_resident .timer residents.timer initial rfl
  obtain ⟨second, wakeupDone, secondTracks⟩ := enable_resident .wakeup residents.wakeup firstTracks rfl
  obtain ⟨third, acceptorDone, thirdTracks⟩ := enable_resident .acceptor residents.acceptor secondTracks rfl
  let server : TcpServer := {
    name, nextConnId := 1, connections := ∅, residents, conns := [], epoller := third
    loop := EventLoop.new runing, agenda := [], callers := [] }
  refine ⟨server, ?_, ?_, rfl, rfl, rfl, rfl, rfl, rfl⟩
  · simp only [start, timerDone, wakeupDone, acceptorDone, Outcome.ok_bind]
    rfl
  · convert thirdTracks using 1
    funext watched
    cases watched with
    | timer | wakeup | acceptor => rfl
    | connection => rfl

end TcpServer

end NutServer.Net
