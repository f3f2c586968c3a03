import NutServer.Net.TcpServerClosing

/-! The accounts of a server on the only loop: `connections_` and `ChannelMap_`
agree with the life of each connection, also when descriptors are reused. -/

set_option autoImplicit false

namespace NutServer.Net

open Library

/-- A hang-up comes together with data, or without anything else to read. -/
def Channel.hangsUpAlone (revents : BitVec 32) : Prop :=
  revents &&& pollHup ≠ 0 → revents &&& pollIn ≠ 0 ∨ revents &&& pollPri = 0 ∧ revents &&& pollRdHup = 0

/-- No handler calls both the close callback and the read callback. -/
theorem Channel.handler_closes_once {revents : BitVec 32} (alone : hangsUpAlone revents) :
    (handler revents).Pairwise fun first second => first.mayClose = true → second.mayClose = false := by
  by_cases closes : revents &&& pollHup ≠ 0 ∧ revents &&& pollIn = 0
  · have quiet := (alone closes.1).resolve_left fun reads => reads closes.2
    have unread : ¬ revents &&& (pollIn ||| pollPri ||| pollRdHup) ≠ 0 := by
      rw [not_not, BitVec.and_or_distrib_left, BitVec.and_or_distrib_left, closes.2, quiet.1, quiet.2]
      decide
    rw [handler, if_pos closes, if_neg unread]
    split_ifs <;> simp [Callback.mayClose]
  · rw [handler, if_neg closes]
    split_ifs <;> simp [Callback.mayClose]

namespace TcpServer

variable {server next : TcpServer} {id : Nat} {old new connection : Connection} {effect : Effect} {revived : Bool}
  {outcome : Outcome TcpServer} {event : Event}

/-- The connections are numbered in the order of the accepts. -/
structure Numbered (server : TcpServer) : Prop where
  nextConnId : server.nextConnId = server.conns.length + 1
  names : ∀ (id : Nat) (connection : Connection), server.conns[id]? = some connection →
    connection.name = server.name ++ "#" ++ ((id : Int) + 1).repr

private theorem increment_of_lt {count : Nat} (few : count + 1 < 2 ^ 31 - 1) :
    increment (count + 1) = (count + 1 : Nat) + 1 := by
  rw [increment, BitVec.toInt_ofInt, Int.bmod_eq_of_le] <;> omega

private theorem connName_injective {name : String} {id other : Nat}
    (same : name ++ "#" ++ ((id : Int) + 1).repr = name ++ "#" ++ ((other : Int) + 1).repr) : id = other := by
  have numbers := Int.repr_injective ((String.append_right_inj _).mp same)
  omega

theorem Numbered.apart (numbered : server.Numbered) {other : Nat} {otherConnection : Connection}
    (found : server.conns[id]? = some connection) (isFound : server.conns[other]? = some otherConnection)
    (same : connection.name = otherConnection.name) : id = other := by
  rw [numbered.names id connection found, numbered.names other otherConnection isFound] at same
  exact connName_injective same

theorem Numbered.fresh (numbered : server.Numbered) (listed : server.Listed) :
    server.connName ∉ server.connections := by
  intro taken
  rw [Std.ExtTreeMap.mem_iff_isSome_getElem?] at taken
  obtain ⟨id, isListed⟩ := Option.isSome_iff_exists.mp taken
  obtain ⟨connection, found, isName⟩ := Option.bind_eq_some_iff.mp ((listed _ _).mp isListed)
  split_ifs at isName
  have inside := (List.getElem?_eq_some_iff.mp found).1
  have same := (numbered.names id connection found).symm.trans (Option.some.inj isName)
  rw [connName, numbered.nextConnId] at same
  have last := connName_injective same
  omega

theorem Numbered.changed (next : TcpServer) (new : Connection) (numbered : server.Numbered)
    (found : server.conns[id]? = some old) (conns : next.conns = server.conns.set id new)
    (name : new.name = old.name) (sameName : next.name = server.name) (sameId : next.nextConnId = server.nextConnId) :
    next.Numbered where
  nextConnId := by
    rw [sameId, conns, List.length_set]
    exact numbered.nextConnId
  names other connection present := by
    rw [sameName]
    rw [getElem?_changed found conns] at present
    split_ifs at present with same
    · cases present
      rw [name, same]
      exact numbered.names id old found
    · exact numbered.names other connection present

theorem Does.numbered (does : server.Does revived effect outcome) (numbered : server.Numbered)
    (few : effect = .accepts → server.conns.length + 1 < 2 ^ 31 - 1) (ran : outcome = .ok next) : next.Numbered := by
  cases does with
  | kept id old new made epoller is found alive kept tracks quiet dead result =>
      cases result.symm.trans ran
      exact numbered.changed _ new found rfl kept.name rfl rfl
  | closes id old conn index epoller is found alive calls state buffered known tracks calm result =>
      rw [result] at ran
      split_ifs at ran
      cases ran
      exact numbered.changed _ _ found rfl rfl rfl rfl
  | destroys id old epoller is found alive tracks idle calm result =>
      rw [result] at ran
      split_ifs at ran
      cases ran
      exact numbered.changed _ _ found rfl rfl rfl rfl
  | accepts conn epoller is known state calls buffered tracks calm result =>
      cases result.symm.trans ran
      constructor
      · rw [List.length_append, List.length_singleton]
        simp only [numbered.nextConnId]
        exact increment_of_lt (few is)
      · intro other connection present
        cases getElem?_appended rfl present with
        | inl last =>
            rw [last.1, last.2, numbered.nextConnId]
        | inr earlier => exact numbered.names other connection earlier
  | rests loop is same calm result =>
      cases result.symm.trans ran
      exact ⟨numbered.nextConnId, numbered.names⟩

/-- The server runs on the only loop, nobody calls `closeConnection`, and there
are fewer than 2³¹ - 1 accepts. -/
def Event.OneLoop (server : TcpServer) : Event → Prop
  | .poll ready => ∀ entry ∈ ready, Channel.hangsUpAlone entry.2
  | .handle reports => server.agenda.head? = some (.acceptor, .read) → reports.accepted.isSome = true →
      server.conns.length + 1 < 2 ^ 31 - 1
  | .request (.closeConnection _) _ => False
  | .foreign _ op => op = .queueInLoop
  | .loop _ | .call _ | .request (.send _ _) _ | .request (.shutdown _) _ | .request .queueInLoop _ | .push _
  | .release _ => True

instance decidableOneLoop (server : TcpServer) : ∀ event : Event, Decidable (event.OneLoop server)
  | .poll ready => inferInstanceAs (Decidable (∀ entry ∈ ready, entry.2 &&& Channel.pollHup ≠ 0 →
      entry.2 &&& Channel.pollIn ≠ 0 ∨ entry.2 &&& Channel.pollPri = 0 ∧ entry.2 &&& Channel.pollRdHup = 0))
  | .handle reports => inferInstanceAs (Decidable (server.agenda.head? = some (.acceptor, .read) →
      reports.accepted.isSome = true → server.conns.length + 1 < 2 ^ 31 - 1))
  | .request (.closeConnection _) _ => isFalse fun impossible => impossible
  | .foreign _ op => inferInstanceAs (Decidable (op = .queueInLoop))
  | .loop _ | .call _ | .request (.send _ _) _ | .request (.shutdown _) _ | .request .queueInLoop _ | .push _
  | .release _ => isTrue trivial

/-- The application queues functors of its own only. -/
def loopOnly : Discipline where
  closing := Channel.Callback.mayClose
  queued := fun func => func = .user
  close := rfl
  user := rfl
  closeConnectionInLoop _ := rfl
  connectDestroyed _ := rfl

private theorem isRevival_of_loopOnly (books : server.Accounted loopOnly server.loop.waiting) {result : WriteResult}
    (enabled : (Event.call result).Enabled server) : server.isRevival (.call result) = false := by
  obtain ⟨index, phase, isNext, -⟩ := perform_call enabled
  obtain ⟨-, -, waiting⟩ := EventLoop.callNext_spec phase
  rw [isRevival, isNext]
  cases selected : server.loop.tempFunctors[index]? with
  | none => rfl
  | some func =>
      rw [selected] at waiting
      have due := books.due func (by rw [waiting]; exact List.mem_cons_self)
      cases func with
      | sendInLoop id messages => cases due <;> contradiction
      | user | shutdownInLoop | closeConnectionInLoop | connectDestroyed => rfl

theorem Event.OneLoop.regular (oneLoop : event.OneLoop server) (enabled : event.Enabled server)
    (books : server.Accounted loopOnly server.loop.waiting) (numbered : server.Numbered) :
    event.Regular loopOnly server := by
  cases event with
  | loop | push | release => trivial
  | poll ready => exact fun entry member => Channel.handler_closes_once (oneLoop entry member)
  | call result => exact isRevival_of_loopOnly books enabled
  | handle reports =>
      constructor
      · intro id head _
        exact books.unclosed id .read (List.mem_of_mem_head? head) rfl
      · intro _ _
        exact numbered.fresh books.listed
  | request op result =>
      intro id same
      subst same
      cases oneLoop
  | foreign thread op =>
      have same : op = .queueInLoop := oneLoop
      subst same
      intro func queues
      cases queues
      rfl

private theorem callbackEffect_accepts {reports : Reports} {watched : Watched} {callback : Channel.Callback}
    (accepts : callbackEffect reports watched callback = .accepts) :
    watched = .acceptor ∧ callback = .read ∧ reports.accepted.isSome = true := by
  cases watched with
  | acceptor =>
      cases callback with
      | read =>
          rw [callbackEffect] at accepts
          split_ifs at accepts with accepted
          exact ⟨rfl, rfl, accepted⟩
      | close | error | write => cases accepts
  | timer | wakeup => cases callback <;> cases accepts
  | connection id =>
      cases callback with
      | read =>
          rw [callbackEffect] at accepts
          split_ifs at accepts
      | close | error | write => cases accepts

private theorem functorEffect_ne_accepts (func : PendingFunctor) : server.functorEffect func ≠ .accepts := by
  intro accepts
  cases func with
  | closeConnectionInLoop id =>
      rw [functorEffect] at accepts
      split_ifs at accepts
  | user | sendInLoop | shutdownInLoop | connectDestroyed => cases accepts

theorem perform_numbered (order : server.InOrder loopOnly) (numbered : server.Numbered)
    (enabled : event.Enabled server) (oneLoop : event.OneLoop server) (performed : server.perform event = .ok next) :
    next.Numbered := by
  cases event with
  | loop event =>
      obtain ⟨loop, _, same⟩ := Outcome.bind_pure_eq_ok_iff.mp performed
      subst same
      exact ⟨numbered.nextConnId, numbered.names⟩
  | poll ready =>
      cases performed
      exact ⟨numbered.nextConnId, numbered.names⟩
  | handle reports =>
      cases agenda : server.agenda with
      | nil => exact absurd agenda enabled.2.1
      | cons entry rest =>
          obtain ⟨watched, callback⟩ := entry
          obtain ⟨-, does⟩ := handle_does order.sound enabled agenda
          simp only [TcpServer.perform, agenda] at performed
          refine does.numbered ⟨numbered.nextConnId, numbered.names⟩ ?_ performed
          intro accepts
          obtain ⟨isAcceptor, isRead, accepted⟩ := callbackEffect_accepts accepts
          exact oneLoop (by rw [agenda, isAcceptor, isRead]; rfl) accepted
  | call result =>
      obtain ⟨index, phase, isNext, called⟩ := perform_call enabled
      simp only [TcpServer.perform, called, Outcome.ok_bind, isNext] at performed
      cases selected : server.loop.tempFunctors[index]? with
      | none =>
          rw [selected] at performed
          cases performed
          exact ⟨numbered.nextConnId, numbered.names⟩
      | some func =>
          rw [selected] at performed
          obtain ⟨-, does⟩ := call_does result order.sound phase selected
          exact does.numbered ⟨numbered.nextConnId, numbered.names⟩
            (fun accepts => absurd accepts (functorEffect_ne_accepts func)) performed
  | request op result =>
      cases op with
      | send id messages =>
          exact (send_does order.sound (enabled.2 id rfl) messages).numbered numbered (fun accepts => by cases accepts)
            performed
      | shutdown id =>
          exact (shutdown_does order.sound (enabled.2 id rfl)).numbered numbered (fun accepts => by cases accepts)
            performed
      | queueInLoop =>
          cases performed
          exact ⟨numbered.nextConnId, numbered.names⟩
      | closeConnection id => cases oneLoop
  | foreign thread op =>
      have same : op = .queueInLoop := oneLoop
      subst same
      cases performed
      exact ⟨numbered.nextConnId, numbered.names⟩
  | push thread =>
      cases found : server.callers.lookup thread with
      | none =>
          simp only [TcpServer.perform, found] at performed
          cases performed
          exact numbered
      | some func =>
          simp only [TcpServer.perform, found] at performed
          cases performed
          exact ⟨numbered.nextConnId, numbered.names⟩
  | release id =>
      obtain ⟨old, found, -⟩ := (Option.any_eq_true _ _).mp enabled.1
      simp only [TcpServer.perform, release, found] at performed
      cases performed
      exact numbered.changed _ { old with alive := false } found rfl rfl rfl rfl

/-- The tables agree with the life of each connection. -/
structure Balanced (server : TcpServer) : Prop where
  names : ∀ (id other : Nat) (connection otherConnection : Connection), server.conns[id]? = some connection →
    server.conns[other]? = some otherConnection → connection.name = otherConnection.name → id = other
  connections : ∀ (name : String) (id : Nat), server.connections[name]? = some id ↔
    ∃ connection : Connection, server.conns[id]? = some connection ∧ connection.closed = false ∧ connection.name = name
  channelMap : ∀ fd id : Nat, server.epoller.channelMap[fd]? = some (.connection id) ↔
    ∃ connection : Connection, server.conns[id]? = some connection ∧ connection.destroyed = false ∧
      connection.conn.channel.fd = fd
  forgotten : server.Forgotten
  unlisted : ∀ (id : Nat) (connection : Connection), server.conns[id]? = some connection →
    connection.destroyed = true → server.connections[connection.name]? = none
  unwatched : ∀ (fd : Nat) (event : EpollEvent Watched) (id : Nat),
    server.epoller.interest[fd]? = some event → event.ptr = .connection id →
    server.isDestroyed id = false

theorem Listed.connections (listed : server.Listed) (name : String) (id : Nat) :
    server.connections[name]? = some id ↔
      ∃ connection : Connection, server.conns[id]? = some connection ∧ connection.closed = false ∧
        connection.name = name := by
  rw [listed, openName, Option.bind_eq_some_iff]
  apply exists_congr
  intro connection
  cases connection.closed <;> simp

theorem Accounted.channelMap {discipline : Discipline} {due : List PendingFunctor}
    (books : server.Accounted discipline due) (sound : server.Sound) (forgotten : server.Forgotten) (fd id : Nat) :
    server.epoller.channelMap[fd]? = some (.connection id) ↔
      ∃ connection : Connection, server.conns[id]? = some connection ∧ connection.destroyed = false ∧
        connection.conn.channel.fd = fd := by
  constructor
  · intro mapped
    obtain ⟨channel, present, isFd⟩ := sound.tracks.mapped fd _ mapped
    obtain ⟨connection, found, isChannel⟩ := Option.bind_eq_some_iff.mp present
    split_ifs at isChannel with alive
    cases isChannel
    refine ⟨connection, found, ?_, isFd⟩
    rw [← Bool.not_eq_true]
    intro gone
    have unmapped := (forgotten id connection found gone alive).2.1
    rw [isFd, mapped] at unmapped
    cases unmapped
  · intro lives
    obtain ⟨connection, found, living, isFd⟩ := lives
    have account := books.account id connection found
    have present := channels_connection found (account.referenced living)
    rw [← isFd]
    exact (sound.tracks.mirrors _ _ present).mapped_iff.mpr (account.registered living)

theorem InOrder.balanced {discipline : Discipline} (order : server.InOrder discipline) (numbered : server.Numbered) :
    server.Balanced where
  names id other connection otherConnection found isFound same := numbered.apart found isFound same
  connections := order.accounts.listed.connections
  channelMap := order.accounts.channelMap order.sound order.forgotten
  forgotten := order.forgotten
  unlisted id connection found gone := by
    cases isListed : server.connections[connection.name]? with
    | none => rfl
    | some other =>
        obtain ⟨otherConnection, isFound, unclosed, same⟩ := (order.accounts.listed.connections _ _).mp isListed
        have equal := numbered.apart isFound found same
        subst equal
        cases found.symm.trans isFound
        cases ((order.accounts.account _ _ found).ordered gone).symm.trans unclosed
  unwatched fd event id watched pointer := by
    obtain ⟨connection, found, -, living⟩ := living_of_watched order.sound order.forgotten watched pointer
    rw [isDestroyed, found, Option.any_some, living]

/-- In every run of the server on its only loop, without `closeConnection`: no
assertion fails, and throughout the run `connections_` holds the connections that
are accepted and not closed, under distinct names, `ChannelMap_` those that
`connectDestroyed` has not reached, and nothing is left of the others. -/
theorem always_balanced (name : String) (residents : Residents) (runing : Bool) (events : List Event)
    {server : TcpServer} (started : start name residents runing = .ok server)
    (along : Along step (fun server event => event.Enabled server ∧ event.OneLoop server) server events) :
    (∃ final, run step server events = some final) ∧ Throughout step Balanced server events := by
  have numbered : server.Numbered := by
    obtain ⟨other, same, -, first, -, conns, -⟩ := start_spec name residents runing
    cases started.symm.trans same
    refine ⟨by rw [first, conns]; rfl, fun id connection found => ?_⟩
    simp [conns] at found
  refine run_throughout (fun server => server.InOrder loopOnly ∧ server.Numbered) Balanced
    ⟨start_inOrder loopOnly started, numbered⟩ ?_ ?_ along
  · intro server both
    exact both.1.balanced both.2
  · intro server event both guarded
    obtain ⟨order, numbered⟩ := both
    obtain ⟨enabled, oneLoop⟩ := guarded
    obtain ⟨next, performed, nextOrder⟩ :=
      perform_total order enabled (oneLoop.regular enabled order.accounts numbered)
    exact ⟨next, step_eq_some_iff.mpr ⟨enabled, performed⟩, nextOrder,
      perform_numbered order numbered enabled oneLoop performed⟩

/-- Descriptor 7 is closed while two bytes are on their way, and accepted again. -/
def reuses : List Event :=
  [.loop .enterLoop, .loop .testQuit, .poll [(5, 1)], .handle ⟨.failed, .failed, some 7⟩,
    .request (.send 0 (ascii "ab")) (.wrote 1), .loop .handlersDone, .loop .swap, .call .failed, .loop .testQuit,
    .poll [(7, 5)], .handle ⟨.received [], .failed, none⟩, .handle ⟨.failed, .wrote 1, none⟩, .loop .handlersDone,
    .loop .swap, .call .failed, .loop .callReturns, .release 0, .call .failed, .loop .testQuit, .poll [(5, 1)],
    .handle ⟨.failed, .failed, some 7⟩, .request (.shutdown 1) .failed, .loop .handlersDone]

theorem always_balanced_reused :
    ∃ server, start "nut" ⟨3, 4, 5, by decide⟩ false = .ok server ∧
      (∃ final, run step server reuses = some final) ∧ Throughout step Balanced server reuses := by
  have reached : (start "nut" ⟨3, 4, 5, by decide⟩ false).toOption.any (fun server =>
      Along step (fun server event => event.Enabled server ∧ event.OneLoop server) server reuses) = true := by
    decide +kernel
  obtain ⟨server, started, along⟩ := exists_started reached
  exact ⟨server, started, always_balanced "nut" ⟨3, 4, 5, by decide⟩ false reuses started along⟩

end TcpServer

end NutServer.Net
