import NutServer.Net.TcpServerEffects

/-! A destroyed connection stays out of the poller until a functor that was
queued before, or that its thread decided on before, writes to it again. -/

set_option autoImplicit false

namespace NutServer.Net

open Library

theorem Connection.Kept.destroyed {old new : Connection} {made : List Call} (kept : old.Kept new made) :
    new.destroyed = old.destroyed := by
  have absent : made.contains .removeChannel = false := by
    rw [← Bool.not_eq_true, List.contains_iff_mem]
    intro member
    cases kept.goesOn _ member
  rw [Connection.destroyed, Connection.destroyed, kept.calls, List.contains_append, absent, Bool.or_false]

theorem Connection.Kept.sane {old new : Connection} {made : List Call} (kept : old.Kept new made) (sane : old.Sane)
    (quiet : old.destroyed = true → made.any Call.isUpdate = false) : new.Sane where
  ended := by rw [kept.destroyed, kept.state, sane.ended]
  idle gone := by
    rw [kept.destroyed] at gone
    rw [kept.silent (quiet gone), sane.idle gone]
  buffered := kept.buffered

theorem Connection.Sane.living {connection : Connection} (sane : connection.Sane)
    (connected : connection.conn.state = .connected) : connection.destroyed = false := by
  rw [← Bool.not_eq_true, sane.ended, connected]
  decide

namespace TcpServer

variable {server next : TcpServer} {id : Nat} {old new connection : Connection} {outcome : Outcome TcpServer}
  {revived : Bool}

/-- Every destroyed connection that was not deleted is in neither table. -/
def Forgotten (server : TcpServer) : Prop :=
  ∀ (id : Nat) (connection : Connection), server.conns[id]? = some connection →
    connection.destroyed = true → connection.alive = true →
      connection.conn.channel.index = -1 ∧
        server.epoller.channelMap[connection.conn.channel.fd]? = none ∧
        server.epoller.interest[connection.conn.channel.fd]? = none

private theorem forgotten_iff (tracks : server.epoller.Tracks server.channels) :
    server.Forgotten ↔ ∀ (id : Nat) (connection : Connection), server.conns[id]? = some connection →
      connection.destroyed = true → connection.alive = true → connection.conn.channel.index = -1 := by
  constructor
  · intro forgotten id connection found gone alive
    exact (forgotten id connection found gone alive).1
  · intro indices id connection found gone alive
    have index := indices id connection found gone alive
    cases tracks.mirrors _ _ (channels_connection found alive) with
    | unknown _ unmapped unwatched => exact ⟨index, unmapped, unwatched⟩
    | watched isOne => omega
    | ignored isTwo => omega

theorem getElem?_changed (found : server.conns[id]? = some old) (conns : next.conns = server.conns.set id new)
    {other : Nat} : next.conns[other]? = if other = id then some new else server.conns[other]? := by
  have inside := (List.getElem?_eq_some_iff.mp found).1
  rw [conns, List.getElem?_set]
  by_cases same : other = id
  · subst same
    simp [inside]
  · simp [same, Ne.symm same]

private theorem isAlive_of_found (found : server.conns[id]? = some old) (alive : old.alive = true) :
    server.isAlive id = true := by
  simp [isAlive, found, alive]

private theorem isAlive_changed (found : server.conns[id]? = some old) (conns : next.conns = server.conns.set id new)
    (alive : new.alive = true) {other : Nat} (before : server.isAlive other = true) :
    next.isAlive other = true := by
  rw [isAlive, getElem?_changed found conns]
  split_ifs
  · exact alive
  · exact before

/-- One connection was changed, and the poller with it. -/
theorem Sound.changed (next : TcpServer) (new : Connection) (sound : server.Sound) (found : server.conns[id]? = some old)
    (residents : next.residents = server.residents) (conns : next.conns = server.conns.set id new)
    (agenda : next.agenda = server.agenda) (phase : next.loop.phase = server.loop.phase) (alive : new.alive = true)
    (tracks : next.epoller.Tracks (Function.update server.channels (.connection id) (some new.conn.channel)))
    (sane : new.Sane) (still : server.agenda ≠ [] → old.destroyed = false → new.destroyed = false)
    (held : ∀ func ∈ next.loop.waiting ++ next.callers.map Prod.snd,
      func ∈ server.loop.waiting ++ server.callers.map Prod.snd ∨
        ∀ other, func.target = some other → server.isAlive other = true) : next.Sound where
  tracks := by
    rw [channels_set found residents conns, alive]
    exact tracks
  sane other connection present := by
    rw [getElem?_changed found conns] at present
    split_ifs at present
    · cases present
      exact sane
    · exact sound.sane other connection present
  agenda other callback member := by
    rw [agenda] at member
    obtain ⟨connection, present, isAlive, living⟩ := sound.agenda other callback member
    rw [getElem?_changed found conns]
    split_ifs with same
    · subst same
      cases found.symm.trans present
      exact ⟨new, rfl, alive, still (List.ne_nil_of_mem member) living⟩
    · exact ⟨connection, present, isAlive, living⟩
  handling some := by
    rw [agenda] at some
    exact phase.trans (sound.handling some)
  held func member other target := by
    refine isAlive_changed found conns alive ?_
    cases held func member with
    | inl before => exact sound.held func before other target
    | inr fresh => exact fresh other target

theorem Forgotten.changed (new : Connection) (forgotten : server.Forgotten)
    (before : server.epoller.Tracks server.channels)
    (after : next.epoller.Tracks next.channels) (found : server.conns[id]? = some old)
    (conns : next.conns = server.conns.set id new)
    (here : new.destroyed = true → new.conn.channel.index = -1) : next.Forgotten := by
  rw [forgotten_iff before] at forgotten
  rw [forgotten_iff after]
  intro other connection present gone alive
  rw [getElem?_changed found conns] at present
  split_ifs at present
  · cases present
    exact here gone
  · exact forgotten other connection present gone alive

theorem getElem?_appended (conns : next.conns = server.conns ++ [new]) {other : Nat}
    (present : next.conns[other]? = some connection) :
    other = server.conns.length ∧ connection = new ∨ server.conns[other]? = some connection := by
  rw [conns] at present
  by_cases before : other < server.conns.length
  · rw [List.getElem?_append_left before] at present
    exact .inr present
  · rw [List.getElem?_append_right (by omega)] at present
    have inside := (List.getElem?_eq_some_iff.mp present).1
    rw [List.length_singleton] at inside
    have last : other = server.conns.length := by omega
    subst last
    simp only [Nat.sub_self, List.getElem?_cons_zero, Option.some.injEq] at present
    exact .inl ⟨rfl, present.symm⟩

theorem getElem?_before (conns : next.conns = server.conns ++ [new]) {other : Nat}
    (present : server.conns[other]? = some connection) : next.conns[other]? = some connection := by
  rw [conns, List.getElem?_append_left (List.getElem?_eq_some_iff.mp present).1, present]

private theorem isAlive_appended (conns : next.conns = server.conns ++ [new]) {other : Nat}
    (before : server.isAlive other = true) : next.isAlive other = true := by
  obtain ⟨connection, present, alive⟩ := (Option.any_eq_true _ _).mp before
  rw [isAlive, getElem?_before conns present]
  exact alive

theorem Sound.appended (next : TcpServer) (new : Connection) (sound : server.Sound)
    (residents : next.residents = server.residents)
    (conns : next.conns = server.conns ++ [new]) (agenda : next.agenda = server.agenda)
    (loop : next.loop = server.loop) (callers : next.callers = server.callers) (alive : new.alive = true)
    (tracks : next.epoller.Tracks
      (Function.update server.channels (.connection server.conns.length) (some new.conn.channel)))
    (sane : new.Sane) : next.Sound where
  tracks := by
    rw [channels_append residents conns alive]
    exact tracks
  sane other connection present := by
    cases getElem?_appended conns present with
    | inl last => exact last.2 ▸ sane
    | inr earlier => exact sound.sane other connection earlier
  agenda other callback member := by
    rw [agenda] at member
    obtain ⟨connection, present, living⟩ := sound.agenda other callback member
    exact ⟨connection, getElem?_before conns present, living⟩
  handling some := by
    rw [agenda] at some
    rw [loop]
    exact sound.handling some
  held func member other target := by
    rw [loop, callers] at member
    exact isAlive_appended conns (sound.held func member other target)

theorem closing_destroyed {conn : TcpConnection} {index : Int} (calls : conn.calls = old.conn.calls) :
    ({ old with conn := closing conn index } : Connection).destroyed = old.destroyed := by
  simp [Connection.destroyed, closing, TcpConnection.disableAll, TcpConnection.updateChannel,
    TcpConnection.call, calls]

section Effects

variable {made : List Call} {epoller : Epoller Watched} {conn : TcpConnection} {index : Int}

theorem Sound.kept (sound : server.Sound) (forgotten : server.Forgotten) (found : server.conns[id]? = some old)
    (alive : old.alive = true) (kept : old.Kept new made)
    (tracks : epoller.Tracks (Function.update server.channels (.connection id) (some new.conn.channel)))
    (silent : old.destroyed = true → made.any Call.isUpdate = false) :
    let changed := { server with epoller }.store id new
    changed.Sound ∧ changed.Forgotten := by
  intro changed
  have conns : changed.conns = server.conns.set id new := rfl
  have nextSound : changed.Sound :=
    sound.changed changed new found rfl conns rfl rfl kept.alive tracks (kept.sane (sound.sane id old found) silent)
      (fun _ living => kept.destroyed.trans living) (fun func member => .inl member)
  refine ⟨nextSound, forgotten.changed new sound.tracks nextSound.tracks found conns ?_⟩
  intro gone
  rw [kept.destroyed] at gone
  rw [kept.silent (silent gone)]
  exact (forgotten id old found gone alive).1

private theorem not_forgotten_of_update (found : server.conns[id]? = some old) (kept : old.Kept new made)
    (gone : old.destroyed = true) (updates : made.any Call.isUpdate = true) :
    ¬ ({ server with epoller }.store id new).Forgotten := by
  intro nextForgotten
  have conns : ({ server with epoller }.store id new).conns = server.conns.set id new := rfl
  have present : ({ server with epoller }.store id new).conns[id]? = some new := by
    rw [getElem?_changed found conns, if_pos rfl]
  exact kept.updates updates (nextForgotten id new present (kept.destroyed.trans gone) kept.alive).1

theorem Sound.closes (sound : server.Sound) (forgotten : server.Forgotten) (found : server.conns[id]? = some old)
    (alive : old.alive = true) (connected : old.conn.state = .connected) (calls : conn.calls = old.conn.calls)
    (state : conn.state = old.conn.state) (buffered : conn.Buffered)
    (tracks : epoller.Tracks (Function.update server.channels (.connection id) (some (closing conn index).channel)))
    (connections : Std.ExtTreeMap String Nat) :
    let closed := { server with
      epoller
      connections
      loop := server.loop.queueInLoop (.connectDestroyed id) }.store id { old with conn := closing conn index }
    closed.Sound ∧ closed.Forgotten := by
  intro closed
  have living := (sound.sane id old found).living connected
  let new : Connection := { old with conn := closing conn index }
  have stillLiving : new.destroyed = false := (closing_destroyed calls).trans living
  have sane : new.Sane := by
    refine ⟨iff_of_false (by simp [stillLiving]) ?_, ?_, ⟨buffered.input, buffered.output⟩⟩
    · have stillConnected : new.conn.state = .connected := state.trans connected
      simp [stillConnected]
    · intro gone
      cases stillLiving.symm.trans gone
  have queued := EventLoop.queueInLoop_queued server.loop (.connectDestroyed id)
  have nextSound : closed.Sound := by
    refine sound.changed closed new found rfl rfl rfl queued.phase alive tracks sane (fun _ _ => stillLiving) ?_
    intro func member
    cases queued.mem member with
    | inl before => exact .inl before
    | inr last =>
        refine .inr fun other target => ?_
        subst last
        cases target
        exact isAlive_of_found found alive
  exact ⟨nextSound, forgotten.changed new sound.tracks nextSound.tracks found rfl
    (fun gone => by cases stillLiving.symm.trans gone)⟩

theorem Sound.destroys (sound : server.Sound) (forgotten : server.Forgotten) (found : server.conns[id]? = some old)
    (alive : old.alive = true) (idle : server.agenda = [])
    (tracks : epoller.Tracks (Function.update server.channels (.connection id)
      (some (destroyed old.conn).channel))) :
    let changed := { server with epoller }.store id { old with conn := destroyed old.conn }
    changed.Sound ∧ changed.Forgotten := by
  intro changed
  let new : Connection := { old with conn := destroyed old.conn }
  have gone : new.destroyed = true := by
    simp [new, Connection.destroyed, destroyed, TcpConnection.call]
  have buffered := (sound.sane id old found).buffered
  have sane : new.Sane := ⟨iff_of_true gone rfl, fun _ => rfl, ⟨buffered.input, buffered.output⟩⟩
  have nextSound : changed.Sound :=
    sound.changed changed new found rfl rfl rfl rfl alive tracks sane (fun some => absurd idle some)
      (fun func member => .inl member)
  exact ⟨nextSound, forgotten.changed new sound.tracks nextSound.tracks found rfl fun _ => rfl⟩

theorem Sound.accepts (sound : server.Sound) (forgotten : server.Forgotten) (name : String)
    (state : conn.state = .connected) (calls : ∃ events, conn.calls = [.updateChannel events])
    (buffered : conn.Buffered)
    (tracks : epoller.Tracks
      (Function.update server.channels (.connection server.conns.length) (some conn.channel)))
    (nextConnId : Int) (connections : Std.ExtTreeMap String Nat) :
    let accepted : TcpServer :=
      { server with nextConnId, connections, epoller, conns := server.conns ++ [⟨name, conn, true⟩] }
    accepted.Sound ∧ accepted.Forgotten := by
  intro accepted
  let new : Connection := ⟨name, conn, true⟩
  obtain ⟨events, calls⟩ := calls
  have living : new.destroyed = false := by simp [new, Connection.destroyed, calls]
  have sane : new.Sane := by
    refine ⟨iff_of_false (by simp [living]) ?_, ?_, buffered⟩
    · have connected : new.conn.state = .connected := state
      simp [connected]
    · intro gone
      cases living.symm.trans gone
  have nextSound : accepted.Sound := sound.appended accepted new rfl rfl rfl rfl rfl rfl tracks sane
  refine ⟨nextSound, (forgotten_iff nextSound.tracks).mpr ?_⟩
  intro other connection present gone alive
  cases getElem?_appended rfl present with
  | inl last =>
      have isNew : connection = new := last.2
      rw [isNew, living] at gone
      cases gone
  | inr earlier => exact (forgotten other connection earlier gone alive).1

/-- A call into the server leaves it in order, and brings a destroyed connection
back into the poller exactly where it says so. -/
theorem Does.forgotten {effect : Effect} (does : server.Does revived effect outcome) (sound : server.Sound)
    (forgotten : server.Forgotten) (ran : outcome = .ok next) :
    (revived = false → next.Sound ∧ next.Forgotten) ∧ (revived = true → ¬ next.Forgotten) := by
  cases does with
  | kept id old new made epoller _ found alive kept tracks quiet dead result =>
      cases result.symm.trans ran
      constructor
      · intro calm
        exact sound.kept forgotten found alive kept tracks fun gone => (quiet gone).trans calm
      · intro revival
        exact not_forgotten_of_update found kept (dead revival) ((quiet (dead revival)).trans revival)
  | closes id old conn index epoller _ found alive calls state buffered known tracks calm result =>
      rw [result] at ran
      split_ifs at ran with both
      cases ran
      refine ⟨fun _ => ?_, fun revival => by cases calm.symm.trans revival⟩
      exact sound.closes forgotten found alive both.1 calls state buffered tracks _
  | destroys id old epoller _ found alive tracks idle calm result =>
      rw [result] at ran
      split_ifs at ran
      cases ran
      refine ⟨fun _ => ?_, fun revival => by cases calm.symm.trans revival⟩
      exact sound.destroys forgotten found alive idle tracks
  | accepts conn epoller _ known state calls buffered tracks calm result =>
      cases result.symm.trans ran
      refine ⟨fun _ => ?_, fun revival => by cases calm.symm.trans revival⟩
      exact sound.accepts forgotten _ state calls buffered tracks _ _
  | rests loop _ same calm result =>
      cases result.symm.trans ran
      refine ⟨fun _ => ⟨⟨sound.tracks, sound.sane, sound.agenda, ?_, ?_⟩, forgotten⟩,
        fun revival => by cases calm.symm.trans revival⟩
      · intro some
        exact same.phase.trans (sound.handling some)
      · rw [same.waiting]
        exact sound.held

end Effects

/-- Functors were queued, by the loop or by other threads. -/
theorem Sound.requeued (sound : server.Sound) (loop : EventLoop PendingFunctor)
    (callers : List (Nat × PendingFunctor)) (phase : loop.phase = server.loop.phase)
    (held : ∀ func ∈ loop.waiting ++ callers.map Prod.snd,
      func ∈ server.loop.waiting ++ server.callers.map Prod.snd ∨
        ∀ id, func.target = some id → server.isAlive id = true) :
    ({ server with loop, callers } : TcpServer).Sound where
  tracks := sound.tracks
  sane := sound.sane
  agenda := sound.agenda
  handling some := phase.trans (sound.handling some)
  held func member id target := by
    cases held func member with
    | inl before => exact sound.held func before id target
    | inr fresh => exact fresh id target

theorem Sound.queued (sound : server.Sound) {func : PendingFunctor}
    (living : ∀ id, func.target = some id → server.isAlive id = true) : (server.queueInLoop func).Sound := by
  have queued := EventLoop.queueInLoop_queued server.loop func
  refine sound.requeued _ server.callers queued.phase ?_
  intro found member
  cases queued.mem member with
  | inl before => exact .inl before
  | inr last => exact .inr (last ▸ living)

theorem closeConnection_forgotten (sound : server.Sound) (forgotten : server.Forgotten)
    (living : server.isAlive id = true) :
    ∃ closed, server.closeConnection id = .ok closed ∧ closed.Sound ∧ closed.Forgotten ∧
      closed.isAlive id = true ∧ closed.callers = server.callers ∧ closed.loop = server.loop := by
  obtain ⟨old, found, alive⟩ := (Option.any_eq_true _ _).mp living
  have same : old.conn.closeConnection.channel = old.conn.channel ∧
      old.conn.closeConnection.calls = old.conn.calls ∧ old.conn.closeConnection.Buffered ∧
      (old.conn.closeConnection.state = .disconnected ↔ old.conn.state = .disconnected) := by
    have buffered := (sound.sane id old found).buffered
    rw [TcpConnection.closeConnection]
    split_ifs with canClose
    · refine ⟨rfl, rfl, ⟨buffered.input, buffered.output⟩, iff_of_false (by simp) ?_⟩
      intro ended
      simp [TcpConnection.canClose, ended] at canClose
    · exact ⟨rfl, rfl, buffered, Iff.rfl⟩
  obtain ⟨channel, calls, buffered, state⟩ := same
  let new : Connection := { old with conn := old.conn.closeConnection }
  have destroyed : new.destroyed = old.destroyed := by
    simp only [new, Connection.destroyed, calls]
  have sane : new.Sane := by
    have before := sound.sane id old found
    refine ⟨?_, ?_, buffered⟩
    · rw [destroyed, before.ended]
      exact state.symm
    · intro gone
      rw [destroyed] at gone
      exact (congrArg Channel.events channel).trans (before.idle gone)
  have tracks : server.epoller.Tracks (Function.update server.channels (.connection id) (some new.conn.channel)) := by
    rw [Function.update_eq_self_iff.mpr]
    · exact sound.tracks
    · rw [channels_connection found alive]
      exact congrArg some channel
  have closedSound : (server.store id new).Sound :=
    sound.changed _ new found rfl rfl rfl rfl alive tracks sane (fun _ living => destroyed.trans living)
      (fun func member => .inl member)
  refine ⟨server.store id new, closeConnection_spec found alive, closedSound,
    forgotten.changed new sound.tracks closedSound.tracks found rfl ?_,
    isAlive_changed found (show (server.store id new).conns = server.conns.set id new from rfl) alive living,
    rfl, rfl⟩
  intro gone
  rw [destroyed] at gone
  exact (congrArg Channel.index channel).trans (forgotten id old found gone alive).1

theorem interest_channels (sound : server.Sound) {fd : Nat} {event : EpollEvent Watched}
    (watched : server.epoller.interest[fd]? = some event) :
    ∃ channel, server.channels event.ptr = some channel ∧ channel.fd = fd := by
  obtain ⟨pointer, channel, present, isFd⟩ := sound.tracks.watched fd event watched
  subst isFd
  have same := (sound.tracks.mirrors pointer channel present).watched_eq watched
  exact ⟨channel, same ▸ present, rfl⟩

/-- Callbacks come to the channels that the epoll set names. -/
theorem watched_of_mem_activeCallbacks {ready : List (Nat × BitVec 32)} {entry : Watched × Channel.Callback}
    (member : entry ∈ server.activeCallbacks ready) :
    ∃ pair ∈ ready, ∃ event, server.epoller.interest[pair.1]? = some event ∧ event.ptr = entry.1 := by
  obtain ⟨⟨fd, revents⟩, isPair, member⟩ := List.mem_flatMap.mp member
  simp only at member
  cases watched : server.epoller.interest[fd]? with
  | none =>
      rw [watched] at member
      cases member
  | some event =>
      rw [watched] at member
      obtain ⟨_, _, same⟩ := List.mem_map.mp member
      exact ⟨(fd, revents), isPair, event, watched, congrArg Prod.fst same⟩

theorem living_of_watched (sound : server.Sound) (forgotten : server.Forgotten) {fd : Nat}
    {event : EpollEvent Watched} (watched : server.epoller.interest[fd]? = some event)
    (pointer : event.ptr = .connection id) :
    ∃ connection, server.conns[id]? = some connection ∧ connection.alive = true ∧ connection.destroyed = false := by
  obtain ⟨channel, present, isFd⟩ := interest_channels sound watched
  rw [pointer] at present
  obtain ⟨connection, found, isChannel⟩ := Option.bind_eq_some_iff.mp present
  split_ifs at isChannel with alive
  cases isChannel
  refine ⟨connection, found, alive, ?_⟩
  rw [← Bool.not_eq_true]
  intro gone
  have unwatched := (forgotten id connection found gone alive).2.2
  rw [isFd, watched] at unwatched
  cases unwatched

theorem mem_activeCallbacks (sound : server.Sound) (forgotten : server.Forgotten) {ready : List (Nat × BitVec 32)}
    {callback : Channel.Callback} (member : (.connection id, callback) ∈ server.activeCallbacks ready) :
    ∃ connection, server.conns[id]? = some connection ∧ connection.alive = true ∧
      connection.destroyed = false := by
  obtain ⟨pair, -, event, watched, pointer⟩ := watched_of_mem_activeCallbacks member
  exact living_of_watched sound forgotten watched pointer

def isRevival (server : TcpServer) : Event → Bool
  | .call result => server.nextFunctor.any (server.revives result)
  | _ => false

private theorem loop_forgotten (sound : server.Sound) (forgotten : server.Forgotten)
    {event : EventLoop.Event PendingFunctor} (enabled : (Event.loop event).Enabled server)
    (performed : server.perform (.loop event) = .ok next) : next.Sound ∧ next.Forgotten := by
  obtain ⟨plain, loopEnabled, done⟩ := enabled
  obtain ⟨loop, loopPerformed, same⟩ := Outcome.bind_pure_eq_ok_iff.mp performed
  subst same
  obtain ⟨waiting, -, handling⟩ := EventLoop.plain_spec plain loopEnabled loopPerformed
  refine ⟨⟨sound.tracks, sound.sane, sound.agenda, ?_, ?_⟩, forgotten⟩
  · intro some
    exact handling (sound.handling some) fun isDone => some (done isDone)
  · rw [waiting]
    exact sound.held

private theorem poll_forgotten (sound : server.Sound) (forgotten : server.Forgotten) {ready : List (Nat × BitVec 32)}
    (enabled : (Event.poll ready).Enabled server) (performed : server.perform (.poll ready) = .ok next) :
    next.Sound ∧ next.Forgotten := by
  cases performed
  refine ⟨⟨sound.tracks, sound.sane, ?_, fun _ => rfl, ?_⟩, forgotten⟩
  · intro id callback member
    have living := mem_activeCallbacks sound forgotten member
    exact living
  · rw [EventLoop.pollReturns_waiting enabled.1]
    exact sound.held

/-- The next callback, behind its removal from the agenda. -/
theorem handle_does (sound : server.Sound) {reports : Reports} (enabled : (Event.handle reports).Enabled server)
    {watched : Watched} {callback : Channel.Callback} {rest : List (Watched × Channel.Callback)}
    (agenda : server.agenda = (watched, callback) :: rest) :
    ({ server with agenda := rest } : TcpServer).Sound ∧
      ({ server with agenda := rest } : TcpServer).Does false (callbackEffect reports watched callback)
        ({ server with agenda := rest }.callback reports watched callback) := by
  obtain ⟨handlers, -, honest⟩ := enabled
  rw [agenda] at honest
  have enteredSound : ({ server with agenda := rest } : TcpServer).Sound := by
    refine ⟨sound.tracks, sound.sane, fun id other member => ?_, fun _ => handlers, sound.held⟩
    exact sound.agenda id other (agenda ▸ List.mem_cons_of_mem _ member)
  exact ⟨enteredSound, callback_does reports watched callback enteredSound
    (fun id isConnection => sound.agenda id callback (by simp [agenda, isConnection])) (honest _ rfl)⟩

private theorem handle_forgotten (sound : server.Sound) (forgotten : server.Forgotten) {reports : Reports}
    (enabled : (Event.handle reports).Enabled server) (performed : server.perform (.handle reports) = .ok next) :
    next.Sound ∧ next.Forgotten := by
  cases agenda : server.agenda with
  | nil => exact absurd agenda enabled.2.1
  | cons entry rest =>
      simp only [TcpServer.perform, agenda] at performed
      obtain ⟨enteredSound, does⟩ := handle_does sound enabled agenda
      exact (does.forgotten enteredSound forgotten performed).1 rfl

theorem Sound.idle (sound : server.Sound) {index : Nat} (phase : server.loop.phase = .running index) :
    server.agenda = [] := by
  by_contra some
  cases phase.symm.trans (sound.handling some)

theorem perform_call (running : server.loop.phase.isRunning = true) :
    ∃ index, server.loop.phase = .running index ∧ server.nextFunctor = server.loop.tempFunctors[index]? ∧
      server.loop.perform .call = .ok (server.loop.callNext index) := by
  obtain ⟨index, phase⟩ := EventLoop.exists_of_isRunning running
  exact ⟨index, phase, by simp [nextFunctor, phase], by simp [EventLoop.perform, phase, pure, Except.pure]⟩

/-- The call of a functor, behind its removal from those that wait. -/
theorem call_does (result : WriteResult) {index : Nat} {func : PendingFunctor} (sound : server.Sound)
    (phase : server.loop.phase = .running index) (selected : server.loop.tempFunctors[index]? = some func) :
    ({ server with loop := server.loop.callNext index } : TcpServer).Sound ∧
      ({ server with loop := server.loop.callNext index } : TcpServer).Does (server.revives result func)
        (server.functorEffect func) ({ server with loop := server.loop.callNext index }.apply result func) := by
  have idle := sound.idle phase
  obtain ⟨-, -, waiting⟩ := EventLoop.callNext_spec phase
  rw [selected] at waiting
  have member : func ∈ server.loop.waiting ++ server.callers.map Prod.snd := by simp [waiting]
  have calledSound : ({ server with loop := server.loop.callNext index } : TcpServer).Sound := by
    refine ⟨sound.tracks, sound.sane, sound.agenda, fun some => absurd idle some, fun other later => ?_⟩
    refine sound.held other ?_
    rw [waiting]
    exact List.mem_cons_of_mem _ later
  exact ⟨calledSound, apply_does calledSound func (sound.held func member) idle⟩

private theorem call_forgotten (sound : server.Sound) (forgotten : server.Forgotten) {result : WriteResult}
    (enabled : (Event.call result).Enabled server) (performed : server.perform (.call result) = .ok next) :
    (server.isRevival (.call result) = false → next.Sound ∧ next.Forgotten) ∧
      (server.isRevival (.call result) = true → ¬ next.Forgotten) := by
  obtain ⟨index, phase, isNext, loopPerformed⟩ := perform_call enabled
  simp only [TcpServer.perform, loopPerformed, Outcome.ok_bind] at performed
  rw [isRevival, isNext]
  cases selected : server.loop.tempFunctors[index]? with
  | none =>
      obtain ⟨-, -, waiting⟩ := EventLoop.callNext_spec phase
      rw [selected] at waiting
      simp only [isNext, selected] at performed
      cases performed
      refine ⟨fun _ => ⟨⟨sound.tracks, sound.sane, sound.agenda, fun some => absurd (sound.idle phase) some, ?_⟩,
        forgotten⟩, fun revival => by cases revival⟩
      rw [show (server.loop.callNext index).waiting = _ from waiting]
      exact sound.held
  | some func =>
      simp only [isNext, selected] at performed
      obtain ⟨calledSound, does⟩ := call_does result sound phase selected
      exact does.forgotten calledSound forgotten performed

private theorem queues_target {op : Request} {func : PendingFunctor} (queues : server.queues op = some func) :
    func.target = op.target := by
  cases op with
  | shutdown | queueInLoop =>
      cases queues
      rfl
  | send id messages | closeConnection id =>
      obtain ⟨connection, -, queued⟩ := Option.bind_eq_some_iff.mp queues
      split_ifs at queued
      cases queued
      rfl

private theorem request_forgotten (sound : server.Sound) (forgotten : server.Forgotten) {op : Request} {result : WriteResult}
    (living : ∀ id, op.target = some id → server.isAlive id = true)
    (performed : server.request result op = .ok next) : next.Sound ∧ next.Forgotten := by
  cases op with
  | send id messages => exact ((send_does sound (living id rfl) messages).forgotten sound forgotten performed).1 rfl
  | shutdown id => exact ((shutdown_does sound (living id rfl)).forgotten sound forgotten performed).1 rfl
  | queueInLoop =>
      cases performed
      refine ⟨sound.queued fun id target => ?_, forgotten⟩
      cases target
  | closeConnection id =>
      obtain ⟨closed, closes, closedSound, closedForgotten, stillAlive, -, -⟩ :=
        closeConnection_forgotten sound forgotten (living id rfl)
      rw [request, closes, Outcome.ok_bind] at performed
      cases queues : server.queues (.closeConnection id) with
      | none =>
          rw [queues] at performed
          cases performed
          exact ⟨closedSound, closedForgotten⟩
      | some func =>
          rw [queues] at performed
          cases performed
          refine ⟨closedSound.queued fun other target => ?_, closedForgotten⟩
          rw [queues_target queues] at target
          cases target
          exact stillAlive

private theorem foreign_forgotten (sound : server.Sound) (forgotten : server.Forgotten) {thread : Nat} {op : Request}
    (living : ∀ id, op.target = some id → server.isAlive id = true)
    (performed : server.foreignRequest thread op = .ok next) : next.Sound ∧ next.Forgotten := by
  have marks : ∃ marked, server.mark op = .ok marked ∧ marked.Sound ∧ marked.Forgotten ∧
      (∀ id, op.target = some id → marked.isAlive id = true) := by
    cases op with
    | send | shutdown | queueInLoop => exact ⟨server, rfl, sound, forgotten, living⟩
    | closeConnection id =>
        obtain ⟨closed, closes, closedSound, closedForgotten, stillAlive, -, -⟩ :=
          closeConnection_forgotten sound forgotten (living id rfl)
        refine ⟨closed, closes, closedSound, closedForgotten, fun other target => ?_⟩
        cases target
        exact stillAlive
  obtain ⟨marked, marks, markedSound, markedForgotten, stillAlive⟩ := marks
  rw [foreignRequest, marks, Outcome.ok_bind] at performed
  cases queues : server.queues op with
  | none =>
      rw [queues] at performed
      cases performed
      exact ⟨markedSound, markedForgotten⟩
  | some func =>
      rw [queues] at performed
      cases performed
      refine ⟨markedSound.requeued marked.loop ((thread, func) :: marked.callers) rfl ?_, markedForgotten⟩
      intro found member
      simp only [List.map_cons, List.mem_append, List.mem_cons] at member ⊢
      rcases member with waiting | same | calling
      · exact .inl (.inl waiting)
      · refine .inr fun id target => stillAlive id ?_
        rw [← queues_target queues, ← same, target]
      · exact .inl (.inr calling)

theorem mem_of_lookup {callers : List (Nat × PendingFunctor)} {thread : Nat} {func : PendingFunctor}
    (found : callers.lookup thread = some func) : func ∈ callers.map Prod.snd := by
  induction callers with
  | nil => cases found
  | cons caller rest ih =>
      obtain ⟨other, otherFunc⟩ := caller
      rw [List.lookup_cons] at found
      split at found
      · cases found
        exact List.mem_cons_self
      · exact List.mem_cons_of_mem _ (ih found)

private theorem push_forgotten (sound : server.Sound) (forgotten : server.Forgotten) {thread : Nat}
    (performed : server.perform (.push thread) = .ok next) : next.Sound ∧ next.Forgotten := by
  cases found : server.callers.lookup thread with
  | none =>
      simp only [TcpServer.perform, found] at performed
      cases performed
      exact ⟨sound, forgotten⟩
  | some func =>
      simp only [TcpServer.perform, found] at performed
      cases performed
      have queued := EventLoop.push_queued server.loop func (thread :: server.loop.wakers)
      refine ⟨sound.requeued _ (server.callers.filter fun caller => caller.1 ≠ thread) queued.phase ?_, forgotten⟩
      intro other member
      refine .inl ?_
      have calling : ∀ later ∈ (server.callers.filter fun caller => caller.1 ≠ thread).map Prod.snd,
          later ∈ server.callers.map Prod.snd := by
        intro later isLater
        obtain ⟨caller, isCaller, same⟩ := List.mem_map.mp isLater
        exact List.mem_map.mpr ⟨caller, List.mem_of_mem_filter isCaller, same⟩
      cases queued.mem member with
      | inl before =>
          rw [List.mem_append] at before ⊢
          exact before.imp_right (calling other)
      | inr same => exact List.mem_append_right _ (same ▸ mem_of_lookup found)

private theorem release_forgotten (sound : server.Sound) (forgotten : server.Forgotten)
    (enabled : (Event.release id).Enabled server) (performed : server.perform (.release id) = .ok next) :
    next.Sound ∧ next.Forgotten := by
  obtain ⟨living, gone, unheld⟩ := enabled
  obtain ⟨old, found, alive⟩ := (Option.any_eq_true _ _).mp living
  have oldGone : old.destroyed = true := by simpa [isDestroyed, found] using gone
  obtain ⟨index, unmapped, unwatched⟩ := forgotten id old found oldGone alive
  let new : Connection := { old with alive := false }
  have sameInterest := Epoller.erase_absent unwatched
  simp only [TcpServer.perform, release, found, sameInterest] at performed
  cases performed
  let released : TcpServer := server.store id new
  have residents : released.residents = server.residents := rfl
  have conns : released.conns = server.conns.set id new := rfl
  have tracks : released.epoller.Tracks released.channels := by
    rw [channels_set found residents conns]
    exact sound.tracks.leave (channels_connection found alive) index
  have sane := sound.sane id old found
  have releasedSound : released.Sound := by
    refine ⟨tracks, ?_, ?_, sound.handling, ?_⟩
    · intro other connection present
      rw [getElem?_changed found conns] at present
      split_ifs at present
      · cases present
        exact ⟨sane.ended, sane.idle, sane.buffered⟩
      · exact sound.sane other connection present
    · intro other callback member
      obtain ⟨connection, present, isAlive, living⟩ := sound.agenda other callback member
      refine ⟨connection, ?_, isAlive, living⟩
      rw [getElem?_changed found conns, if_neg, present]
      intro same
      subst same
      cases found.symm.trans present
      cases oldGone.symm.trans living
    · intro func member other target
      have apart : other ≠ id := by
        intro same
        subst same
        have holds : server.isHeld other = true := List.any_eq_true.mpr ⟨func, member, by simp [target]⟩
        cases unheld.symm.trans holds
      rw [isAlive, getElem?_changed found conns, if_neg apart]
      exact sound.held func member other target
  refine ⟨releasedSound, (forgotten_iff tracks).mpr ?_⟩
  intro other connection present isGone isAlive
  rw [getElem?_changed found conns] at present
  split_ifs at present
  · cases present
    cases isAlive
  · exact (forgotten other connection present isGone isAlive).1

/-- One step: only a `sendInLoop` that comes too late and leaves something to
write brings a destroyed connection back. -/
theorem perform_forgotten (sound : server.Sound) (forgotten : server.Forgotten) {event : Event}
    (enabled : event.Enabled server) (performed : server.perform event = .ok next) :
    (server.isRevival event = false → next.Sound ∧ next.Forgotten) ∧
      (server.isRevival event = true → ¬ next.Forgotten) := by
  cases event with
  | loop event =>
      exact ⟨fun _ => loop_forgotten sound forgotten enabled performed, fun revival => by cases revival⟩
  | poll ready =>
      exact ⟨fun _ => poll_forgotten sound forgotten enabled performed, fun revival => by cases revival⟩
  | handle reports =>
      exact ⟨fun _ => handle_forgotten sound forgotten enabled performed, fun revival => by cases revival⟩
  | call result => exact call_forgotten sound forgotten enabled performed
  | request op result =>
      exact ⟨fun _ => request_forgotten sound forgotten enabled.2 performed, fun revival => by cases revival⟩
  | foreign thread op =>
      exact ⟨fun _ => foreign_forgotten sound forgotten enabled.2.2 performed, fun revival => by cases revival⟩
  | push thread => exact ⟨fun _ => push_forgotten sound forgotten performed, fun revival => by cases revival⟩
  | release id =>
      exact ⟨fun _ => release_forgotten sound forgotten enabled performed, fun revival => by cases revival⟩

theorem step_eq_some_iff {event : Event} :
    step server event = some next ↔ event.Enabled server ∧ server.perform event = .ok next :=
  Outcome.ite_toOption_eq_some_iff

theorem start_sound {name : String} {residents : Residents} {runing : Bool}
    (started : start name residents runing = .ok server) : server.Sound ∧ server.Forgotten := by
  obtain ⟨other, same, tracks, -, -, conns, loop, agenda, callers⟩ := start_spec name residents runing
  cases started.symm.trans same
  have none : ∀ (id : Nat) (connection : Connection), server.conns[id]? ≠ some connection := by
    intro id connection
    simp [conns]
  refine ⟨⟨tracks, fun id connection found => absurd found (none id connection), ?_, ?_, ?_⟩,
    fun id connection found => absurd found (none id connection)⟩
  · intro id callback member
    rw [agenda] at member
    cases member
  · exact fun some => absurd agenda some
  · intro func member
    rw [loop, callers] at member
    cases member

/-- In every run of the server with any number of other threads: a connection
that `connectDestroyed` has run for stays out of the poller, throughout the run,
exactly when no `sendInLoop` that is called after it leaves something to write. -/
theorem stays_forgotten_iff (name : String) (residents : Residents) (runing : Bool) (events : List Event)
    {server final : TcpServer} (started : start name residents runing = .ok server)
    (ran : run step server events = some final) :
    Throughout step Forgotten server events ↔
      Along step (fun server event => server.isRevival event = false) server events := by
  refine throughout_iff_along (fun server => server.Sound ∧ server.Forgotten) Forgotten (start_sound started)
    (fun _ both => both.2) ?_ ?_ ran
  · intro server event next both calm stepped
    obtain ⟨enabled, performed⟩ := step_eq_some_iff.mp stepped
    exact (perform_forgotten both.1 both.2 enabled performed).1 calm
  · intro server event next both revival stepped
    obtain ⟨enabled, performed⟩ := step_eq_some_iff.mp stepped
    exact (perform_forgotten both.1 both.2 enabled performed).2 (by simpa using revival)

theorem exists_started {name : String} {residents : Residents} {runing : Bool} {property : TcpServer → Prop}
    [DecidablePred property]
    (reached : (start name residents runing).toOption.any (fun server => property server) = true) :
    ∃ server, start name residents runing = .ok server ∧ property server := by
  obtain ⟨server, isServer, holds⟩ := (Option.any_eq_true _ _).mp reached
  exact ⟨server, Outcome.toOption_eq_some_iff.mp isServer, of_decide_eq_true holds⟩

/-- One connection on descriptor 7. Another thread finds it connected; the peer
closes it; only then the thread queues its functor, behind `connectDestroyed`. -/
def lateSend (result : WriteResult) : List Event :=
  [.loop .enterLoop, .loop .testQuit, .poll [(5, 1)], .handle ⟨.failed, .failed, some 7⟩, .loop .handlersDone,
    .loop .swap, .call .failed, .loop .testQuit, .foreign 1 (.send 0 (ascii "ab")), .poll [(7, 1)],
    .handle ⟨.received [], .failed, none⟩, .push 1, .loop .handlersDone, .loop .swap, .call .failed,
    .loop .callReturns, .call result, .loop .callReturns]

/-- The late functor writes all it was given. -/
theorem stays_forgotten_iff_written :
    ∃ server final, start "nut" ⟨3, 4, 5, by decide⟩ false = .ok server ∧
      run step server (lateSend (.wrote 2)) = some final ∧
      Throughout step Forgotten server (lateSend (.wrote 2)) := by
  have reached : (start "nut" ⟨3, 4, 5, by decide⟩ false).toOption.any (fun server =>
      (run step server (lateSend (.wrote 2))).isSome ∧
        Along step (fun server event => server.isRevival event = false) server (lateSend (.wrote 2))) = true := by
    decide +kernel
  obtain ⟨server, started, isSome, calm⟩ := exists_started reached
  obtain ⟨final, ran⟩ := Option.isSome_iff_exists.mp isSome
  exact ⟨server, final, started, ran,
    (stays_forgotten_iff "nut" ⟨3, 4, 5, by decide⟩ false (lateSend (.wrote 2)) started ran).mpr calm⟩

/-- The kernel takes nothing of it: the destroyed connection is watched again. -/
theorem destroyed_comes_back :
    ∃ server final, start "nut" ⟨3, 4, 5, by decide⟩ false = .ok server ∧
      run step server (lateSend .failed) = some final ∧ ¬ final.Forgotten := by
  have reached : (start "nut" ⟨3, 4, 5, by decide⟩ false).toOption.any (fun server =>
      ((run step server (lateSend .failed)).any fun final => (final.conns[0]?).any fun connection =>
        connection.destroyed ∧ connection.alive ∧ connection.conn.channel.index = 1) = true) = true := by
    decide +kernel
  obtain ⟨server, started, shown⟩ := exists_started reached
  obtain ⟨final, ran, shown⟩ := (Option.any_eq_true _ _).mp shown
  obtain ⟨connection, found, shown⟩ := (Option.any_eq_true _ _).mp shown
  obtain ⟨gone, alive, isOne⟩ := of_decide_eq_true shown
  refine ⟨server, final, started, ran, fun forgotten => ?_⟩
  have index := (forgotten 0 connection found gone alive).1
  rw [isOne] at index
  cases index

end TcpServer

end NutServer.Net
