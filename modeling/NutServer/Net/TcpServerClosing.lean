import NutServer.Net.TcpServerAccounts

/-! Each connection is closed once, as long as nobody calls `closeConnection` and
no handler of a closed connection reads its end again. -/

set_option autoImplicit false

namespace NutServer.Net

open Library

namespace TcpServer

variable {discipline : Discipline} {server next : TcpServer} {id : Nat} {old new connection : Connection}
  {due : List PendingFunctor}

structure InOrder (discipline : Discipline) (server : TcpServer) : Prop where
  sound : server.Sound
  forgotten : server.Forgotten
  accounts : server.Accounted discipline server.loop.waiting

/-- The steps after which a server stays in order. -/
def Event.Regular (discipline : Discipline) (server : TcpServer) : Event → Prop
  | .poll ready => ∀ entry ∈ ready, (Channel.handler entry.2).Pairwise fun first second =>
      first.mayClose = true → discipline.closing second = false
  | .handle reports =>
      (∀ id, server.agenda.head? = some (.connection id, .read) → reports.read = .received [] →
        server.isClosed id = false) ∧
      (server.agenda.head? = some (.acceptor, .read) → reports.accepted.isSome = true →
        server.connName ∉ server.connections)
  | .call result => server.isRevival (.call result) = false
  | .request op _ => ∀ id, op = .closeConnection id → server.queues op = none
  | .foreign _ op => ∀ func, server.queues op = some func → discipline.queued func = true
  | .loop _ | .push _ | .release _ => True

/-- Functors of the application were queued. -/
theorem Accounted.requeued (books : server.Accounted discipline server.loop.waiting)
    (loop : EventLoop PendingFunctor) (callers : List (Nat × PendingFunctor))
    (waiting : ∀ id, loop.waiting.count (.connectDestroyed id) = server.loop.waiting.count (.connectDestroyed id))
    (orderly : loop.Orderly PendingFunctor.isConnectDestroyed)
    (due : ∀ func ∈ loop.waiting, func ∈ server.loop.waiting ∨ discipline.queued func = true)
    (calling : ∀ func ∈ callers.map Prod.snd, discipline.queued func = true) :
    ({ server with loop, callers } : TcpServer).Accounted discipline loop.waiting where
  listed := books.listed
  account id connection found := by
    rw [waiting id]
    exact books.account id connection found
  unclosed := books.unclosed
  ordered := books.ordered
  orderly := orderly
  due func member := by
    cases due func member with
    | inl before => exact books.due func before
    | inr queued => exact .inl queued
  callers := calling

theorem Accounted.queued (books : server.Accounted discipline server.loop.waiting) {loop : EventLoop PendingFunctor}
    {func : PendingFunctor} (queued : server.loop.Queued func loop) (application : discipline.queued func = true)
    (callers : List (Nat × PendingFunctor)) (calling : ∀ func ∈ callers.map Prod.snd, discipline.queued func = true) :
    ({ server with loop, callers } : TcpServer).Accounted discipline loop.waiting := by
  have other : ∀ id, func ≠ .connectDestroyed id := by
    intro id same
    rw [same, discipline.connectDestroyed] at application
    cases application
  have kind : func.isConnectDestroyed = false := by
    cases func with
    | connectDestroyed id => exact absurd rfl (other id)
    | user | sendInLoop | shutdownInLoop | closeConnectionInLoop => rfl
  refine books.requeued loop callers ?_ (queued.orderly books.orderly (.inr kind)) ?_ calling
  · intro id
    rw [queued.waiting, List.count_append, List.count_singleton, if_neg (by simpa using other id), Nat.add_zero]
  · intro found member
    rw [queued.waiting] at member
    cases List.mem_append.mp member with
    | inl before => exact .inl before
    | inr last =>
        cases List.mem_singleton.mp last
        exact .inr application

private theorem loop_total (books : server.Accounted discipline server.loop.waiting)
    {event : EventLoop.Event PendingFunctor} (enabled : (Event.loop event).Enabled server) :
    ∃ next, server.perform (.loop event) = .ok next ∧ next.Accounted discipline next.loop.waiting := by
  obtain ⟨plain, loopEnabled, -⟩ := enabled
  obtain ⟨loop, performed⟩ := EventLoop.plain_total plain loopEnabled books.orderly.rested
  obtain ⟨waiting, orderly, -⟩ := EventLoop.plain_spec plain loopEnabled performed
  refine ⟨{ server with loop }, by rw [TcpServer.perform, performed]; rfl, ?_⟩
  refine books.requeued loop server.callers (fun id => by rw [waiting]) (orderly _ books.orderly) ?_ books.callers
  intro func member
  rw [waiting] at member
  exact .inl member

/-- Before the loop polls, `connectDestroyed` has run for all closed connections. -/
theorem Accounted.unclosed_of_polling (books : server.Accounted discipline server.loop.waiting)
    (polling : server.loop.phase = .polling) (found : server.conns[id]? = some connection)
    (living : connection.destroyed = false) : connection.closed = false := by
  have waiting : server.loop.waiting = server.loop.pendingFunctors := by
    simp [EventLoop.waiting, EventLoop.remaining, polling]
  have none : server.loop.waiting.count (.connectDestroyed id) = 0 := by
    rw [waiting, List.count_eq_zero]
    intro member
    have early := books.orderly.early (by rw [polling]; rfl) _ member
    cases early
  have due := (books.account id connection found).due
  rw [none] at due
  rw [← Bool.not_eq_true]
  intro isClosed
  rw [if_pos ⟨isClosed, living⟩] at due
  cases due

private theorem interest_apart (sound : server.Sound) {fd other : Nat} {event otherEvent : EpollEvent Watched}
    (watched : server.epoller.interest[fd]? = some event)
    (otherWatched : server.epoller.interest[other]? = some otherEvent) (same : event.ptr = otherEvent.ptr) :
    fd = other := by
  obtain ⟨channel, present, isFd⟩ := interest_channels sound watched
  obtain ⟨otherChannel, otherPresent, isOther⟩ := interest_channels sound otherWatched
  rw [same, otherPresent] at present
  cases present
  exact isFd.symm.trans isOther

/-- The callbacks of a channel come in the order of its handler, without those of
another in between. -/
theorem activeCallbacks_ordered (sound : server.Sound) {ready : List (Nat × BitVec 32)}
    (distinct : (ready.map Prod.fst).Nodup) {closing : Channel.Callback → Bool}
    (masks : ∀ entry ∈ ready, (Channel.handler entry.2).Pairwise fun first second =>
      first.mayClose = true → closing second = false) :
    (server.activeCallbacks ready).Pairwise fun first second =>
      first.1 = second.1 → first.2.mayClose = true → closing second.2 = false := by
  rw [activeCallbacks, List.pairwise_flatMap]
  constructor
  · intro entry member
    have kept := masks entry member
    obtain ⟨fd, revents⟩ := entry
    simp only
    cases server.epoller.interest[fd]? with
    | none => exact List.Pairwise.nil
    | some event =>
        rw [List.pairwise_map]
        exact kept.imp fun ordered _ closes => ordered closes
  · have apart : ready.Pairwise fun entry other => entry.1 ≠ other.1 := List.pairwise_map.mp distinct
    apply apart.imp
    intro entry other fds first isFirst second isSecond same
    have isFirst : first ∈ server.activeCallbacks [entry] :=
      List.mem_flatMap.mpr ⟨entry, List.mem_singleton_self entry, isFirst⟩
    have isSecond : second ∈ server.activeCallbacks [other] :=
      List.mem_flatMap.mpr ⟨other, List.mem_singleton_self other, isSecond⟩
    obtain ⟨_, isEntry, event, watched, pointer⟩ := watched_of_mem_activeCallbacks isFirst
    obtain ⟨_, isOther, otherEvent, otherWatched, otherPointer⟩ := watched_of_mem_activeCallbacks isSecond
    cases List.mem_singleton.mp isEntry
    cases List.mem_singleton.mp isOther
    have samePointer := pointer.trans (same.trans otherPointer.symm)
    exact absurd (interest_apart sound watched otherWatched samePointer) fds

private theorem poll_total (order : server.InOrder discipline) {ready : List (Nat × BitVec 32)}
    (enabled : (Event.poll ready).Enabled server) (regular : (Event.poll ready).Regular discipline server) :
    ∃ next, server.perform (.poll ready) = .ok next ∧ next.Accounted discipline next.loop.waiting := by
  obtain ⟨polling, distinct, -⟩ := enabled
  have books := order.accounts
  refine ⟨_, rfl, ?_⟩
  have waiting := EventLoop.pollReturns_waiting polling
  rw [show ({ server.loop with phase := .handlers } : EventLoop PendingFunctor).waiting = _ from waiting]
  refine ⟨books.listed, books.account, ?_, ?_, EventLoop.pollReturns_orderly, books.due, books.callers⟩
  · intro id callback member _
    obtain ⟨connection, found, -, living⟩ := mem_activeCallbacks order.sound order.forgotten member
    have unclosed := books.unclosed_of_polling polling found living
    exact (isClosed_of_found found).trans unclosed
  · exact activeCallbacks_ordered order.sound distinct regular

private theorem handle_total (order : server.InOrder discipline) {reports : Reports}
    (enabled : (Event.handle reports).Enabled server) (regular : (Event.handle reports).Regular discipline server) :
    ∃ next, server.perform (.handle reports) = .ok next ∧ next.Accounted discipline next.loop.waiting := by
  have books := order.accounts
  cases agenda : server.agenda with
  | nil => exact absurd agenda enabled.2.1
  | cons entry rest =>
      obtain ⟨watched, callback⟩ := entry
      obtain ⟨enteredSound, does⟩ := handle_does order.sound enabled agenda
      have ordered := books.ordered
      rw [agenda, List.pairwise_cons] at ordered
      let entered : TcpServer := { server with agenda := rest }
      have enteredBooks : entered.Accounted discipline ([] ++ entered.loop.waiting) := by
        refine ⟨books.listed, books.account, ?_, ordered.2, books.orderly, books.due, books.callers⟩
        intro id other member
        exact books.unclosed id other (agenda ▸ List.mem_cons_of_mem _ member)
      have fits : entered.Fits discipline [] (callbackEffect reports watched callback) := by
        have handling : entered.loop.phase.isHandling = true := by
          rw [show entered.loop.phase = .handlers from enabled.1]
          rfl
        have nothing : ∀ func ∈ ([] : List PendingFunctor), func.isConnectDestroyed = false := by
          intro func member
          cases member
        obtain ⟨once, fresh⟩ := regular
        rw [agenda] at once fresh
        cases watched with
        | timer | wakeup => cases callback <;> exact nothing
        | acceptor =>
            cases callback with
            | read =>
                rw [callbackEffect]
                split_ifs with accepted
                · exact ⟨rfl, fresh rfl accepted⟩
                · exact nothing
            | close | error | write => exact nothing
        | connection id =>
            cases callback with
            | close =>
                have unclosed := books.unclosed id .close (by simp [agenda]) discipline.close
                exact ⟨rfl, handling, unclosed, fun other member => ordered.1 _ member rfl rfl⟩
            | read =>
                rw [callbackEffect]
                split_ifs with ended
                · exact ⟨rfl, handling, once id rfl ended, fun other member => ordered.1 _ member rfl rfl⟩
                · exact nothing
            | error | write => exact nothing
      simp only [TcpServer.perform, agenda]
      exact does.accounted [] enteredSound enteredBooks fits

private theorem call_total (order : server.InOrder discipline) {result : WriteResult}
    (enabled : (Event.call result).Enabled server) (regular : (Event.call result).Regular discipline server) :
    ∃ next, server.perform (.call result) = .ok next ∧ next.Accounted discipline next.loop.waiting := by
  have books := order.accounts
  obtain ⟨index, phase, isNext, performed⟩ := perform_call enabled
  obtain ⟨orderly, -, waiting⟩ := EventLoop.callNext_spec phase
  simp only [TcpServer.perform, performed, Outcome.ok_bind, isNext]
  simp only [Event.Regular, isRevival, isNext] at regular
  cases selected : server.loop.tempFunctors[index]? with
  | none =>
      rw [selected] at waiting
      refine ⟨_, rfl, ?_⟩
      refine books.requeued _ server.callers (fun id => by rw [waiting]) (orderly _ books.orderly) ?_ books.callers
      intro func member
      rw [waiting] at member
      exact .inl member
  | some func =>
      rw [selected] at waiting regular
      simp only [Option.any_some] at regular
      obtain ⟨calledSound, does⟩ := call_does result order.sound phase selected
      rw [regular] at does
      let called : TcpServer := { server with loop := server.loop.callNext index }
      have calledBooks : called.Accounted discipline ([func] ++ called.loop.waiting) := by
        have hand : [func] ++ called.loop.waiting = server.loop.waiting := waiting.symm
        rw [hand]
        exact ⟨books.listed, books.account, books.unclosed, books.ordered, orderly _ books.orderly, books.due,
          books.callers⟩
      have fits : called.Fits discipline [func] (server.functorEffect func) := by
        have due := calledBooks.due func (List.mem_append_left _ (List.mem_singleton_self func))
        cases func with
        | user | sendInLoop | shutdownInLoop =>
            intro other member
            cases List.mem_singleton.mp member
            rfl
        | closeConnectionInLoop id =>
            rw [discipline.closeConnectionInLoop] at due
            cases due <;> contradiction
        | connectDestroyed id => rfl
      exact does.accounted [func] calledSound calledBooks fits

private theorem closeConnection_nothing (living : server.isAlive id = true)
    (nothing : server.queues (.closeConnection id) = none) : server.closeConnection id = .ok server := by
  obtain ⟨old, found, alive⟩ := (Option.any_eq_true _ _).mp living
  have shut : old.conn.canClose = false := by
    rw [← Bool.not_eq_true]
    intro canClose
    simp [queues, found, canClose] at nothing
  have same : old.conn.closeConnection = old.conn := by
    rw [TcpConnection.closeConnection, shut]
    rfl
  rw [closeConnection_spec found alive, same, store]
  have stored : server.conns.set id old = server.conns := by
    obtain ⟨inside, isOld⟩ := List.getElem?_eq_some_iff.mp found
    rw [← isOld, List.set_getElem_self]
  rw [stored]

private theorem request_total (order : server.InOrder discipline) {op : Request} {result : WriteResult}
    (enabled : (Event.request op result).Enabled server)
    (regular : (Event.request op result).Regular discipline server) :
    ∃ next, server.perform (.request op result) = .ok next ∧ next.Accounted discipline next.loop.waiting := by
  obtain ⟨-, living⟩ := enabled
  have books := order.accounts
  have nothing : ∀ func ∈ ([] : List PendingFunctor), func.isConnectDestroyed = false := by
    intro func member
    cases member
  cases op with
  | send id messages =>
      exact (send_does order.sound (living id rfl) messages).accounted [] order.sound books nothing
  | shutdown id => exact (shutdown_does order.sound (living id rfl)).accounted [] order.sound books nothing
  | queueInLoop =>
      have queued := EventLoop.queueInLoop_queued server.loop .user
      exact ⟨_, rfl, books.queued queued discipline.user server.callers books.callers⟩
  | closeConnection id =>
      have none := regular id rfl
      refine ⟨server, ?_, books⟩
      simp only [TcpServer.perform, request, closeConnection_nothing (living id rfl) none, Outcome.ok_bind, none]
      rfl

private theorem foreign_total (order : server.InOrder discipline) {thread : Nat} {op : Request}
    (enabled : (Event.foreign thread op).Enabled server)
    (regular : (Event.foreign thread op).Regular discipline server) :
    ∃ next, server.perform (.foreign thread op) = .ok next ∧ next.Accounted discipline next.loop.waiting := by
  obtain ⟨-, -, living⟩ := enabled
  have books := order.accounts
  have marks : server.mark op = .ok server := by
    cases op with
    | send | shutdown | queueInLoop => rfl
    | closeConnection id =>
        apply closeConnection_nothing (living id rfl)
        cases queues : server.queues (.closeConnection id) with
        | none => rfl
        | some func =>
            have queued := regular func queues
            obtain ⟨connection, -, isFunc⟩ := Option.bind_eq_some_iff.mp queues
            split_ifs at isFunc
            cases isFunc
            rw [discipline.closeConnectionInLoop] at queued
            cases queued
  simp only [TcpServer.perform, foreignRequest, marks, Outcome.ok_bind]
  cases queues : server.queues op with
  | none => exact ⟨server, rfl, books⟩
  | some func =>
      refine ⟨_, rfl, books.listed, books.account, books.unclosed, books.ordered, books.orderly, books.due, ?_⟩
      intro other member
      cases List.mem_cons.mp member with
      | inl first => exact first ▸ regular func queues
      | inr before => exact books.callers other before

private theorem push_total (books : server.Accounted discipline server.loop.waiting) (thread : Nat) :
    ∃ next, server.perform (.push thread) = .ok next ∧ next.Accounted discipline next.loop.waiting := by
  cases found : server.callers.lookup thread with
  | none => exact ⟨server, by simp only [TcpServer.perform, found]; rfl, books⟩
  | some func =>
      simp only [TcpServer.perform, found]
      refine ⟨_, rfl, ?_⟩
      have queued := EventLoop.push_queued server.loop func (thread :: server.loop.wakers)
      refine books.queued queued (books.callers func (mem_of_lookup found)) _ ?_
      intro other member
      obtain ⟨caller, isCaller, same⟩ := List.mem_map.mp member
      exact books.callers other (List.mem_map.mpr ⟨caller, List.mem_of_mem_filter isCaller, same⟩)

private theorem release_total (books : server.Accounted discipline server.loop.waiting)
    (enabled : (Event.release id).Enabled server) :
    ∃ next, server.perform (.release id) = .ok next ∧ next.Accounted discipline next.loop.waiting := by
  obtain ⟨living, gone, -⟩ := enabled
  obtain ⟨old, found, -⟩ := (Option.any_eq_true _ _).mp living
  have oldGone : old.destroyed = true := by simpa [isDestroyed, found] using gone
  let new : Connection := { old with alive := false }
  let released : TcpServer := { server with
    conns := server.conns.set id new
    epoller := { server.epoller with interest := server.epoller.interest.erase old.conn.channel.fd } }
  have performed : server.perform (.release id) = .ok released := by
    simp only [TcpServer.perform, release, found]
    rfl
  have conns : released.conns = server.conns.set id new := rfl
  refine ⟨released, performed, ?_⟩
  refine books.changed released new found conns rfl rfl (books.listed.changed found conns rfl rfl rfl)
    ((books.account id old found).released oldGone) (fun _ _ => rfl) ?_ books.orderly
    (fun func member => .inl member)
  intro callback member closing
  have unclosed := books.unclosed id callback member closing
  rw [isClosed_of_found found] at unclosed
  exact unclosed

theorem perform_total (order : server.InOrder discipline) {event : Event} (enabled : event.Enabled server)
    (regular : event.Regular discipline server) :
    ∃ next, server.perform event = .ok next ∧ next.InOrder discipline := by
  have total : ∃ next, server.perform event = .ok next ∧ next.Accounted discipline next.loop.waiting := by
    cases event with
    | loop event => exact loop_total order.accounts enabled
    | poll ready => exact poll_total order enabled regular
    | handle reports => exact handle_total order enabled regular
    | call result => exact call_total order enabled regular
    | request op result => exact request_total order enabled regular
    | foreign thread op => exact foreign_total order enabled regular
    | push thread => exact push_total order.accounts thread
    | release id => exact release_total order.accounts enabled
  obtain ⟨next, performed, accounts⟩ := total
  have calm : server.isRevival event = false := by
    cases event with
    | call result => exact regular
    | loop | poll | handle | request | foreign | push | release => rfl
  obtain ⟨sound, forgotten⟩ := (perform_forgotten order.sound order.forgotten enabled performed).1 calm
  exact ⟨next, performed, sound, forgotten, accounts⟩

theorem start_inOrder (discipline : Discipline) {name : String} {residents : Residents} {runing : Bool}
    (started : start name residents runing = .ok server) : server.InOrder discipline := by
  obtain ⟨sound, forgotten⟩ := start_sound started
  obtain ⟨other, same, -, -, connections, conns, loop, agenda, callers⟩ := start_spec name residents runing
  cases started.symm.trans same
  refine ⟨sound, forgotten, ?_, ?_, ?_, ?_, ?_, ?_, ?_⟩
  · intro connName id
    simp [connections, openName, conns]
  · intro id connection found
    simp [conns] at found
  · intro id callback member
    rw [agenda] at member
    cases member
  · rw [agenda]
    exact List.Pairwise.nil
  · rw [loop]
    exact EventLoop.new_orderly runing
  · intro func member
    rw [loop] at member
    cases member
  · intro func member
    rw [callers] at member
    cases member

/-- Any thread sends and shuts down; any mask comes to a handler. -/
def anyThread : Discipline where
  closing := fun callback => callback = .close
  queued
    | .user | .sendInLoop _ _ | .shutdownInLoop _ => true
    | .closeConnectionInLoop _ | .connectDestroyed _ => false
  close := rfl
  user := rfl
  closeConnectionInLoop _ := rfl
  connectDestroyed _ := rfl

/-- Nothing comes before the close callback of a channel. -/
theorem handler_close_first (revents : BitVec 32) :
    (Channel.handler revents).Pairwise fun first second =>
      first.mayClose = true → anyThread.closing second = false := by
  unfold Channel.handler
  split_ifs <;> simp [anyThread, Channel.Callback.mayClose]

/-- `closeConnection()` that sets the state. -/
def callsClose (server : TcpServer) : Event → Bool
  | .request (.closeConnection id) _ | .foreign _ (.closeConnection id) =>
      (server.conns[id]?).any fun connection => connection.conn.canClose
  | _ => false

/-- The handler of a closed connection reads its end again. -/
def readsAgain (server : TcpServer) : Event → Bool
  | .handle reports =>
      match server.agenda.head? with
      | some (.connection id, .read) => reports.read = .received [] ∧ server.isClosed id
      | _ => false
  | _ => false

/-- An accept under a name that a connection still has. -/
def takesName (server : TcpServer) : Event → Bool
  | .handle reports => server.agenda.head? = some (.acceptor, .read) ∧ reports.accepted.isSome ∧
      server.connName ∈ server.connections
  | _ => false

def Event.Careful (server : TcpServer) (event : Event) : Prop :=
  server.callsClose event = false ∧ server.readsAgain event = false ∧ server.takesName event = false ∧
    server.isRevival event = false

instance decidableCareful (server : TcpServer) (event : Event) : Decidable (event.Careful server) :=
  inferInstanceAs (Decidable (_ ∧ _ ∧ _ ∧ _))

private theorem queues_closeConnection :
    server.queues (.closeConnection id) =
      if (server.conns[id]?).any fun connection => connection.conn.canClose then some (.closeConnectionInLoop id)
      else none := by
  cases found : server.conns[id]? with
  | none => simp [queues, found]
  | some connection => simp [queues, found]

theorem Event.Careful.regular {event : Event} (careful : event.Careful server) : event.Regular anyThread server := by
  obtain ⟨uncalled, once, fresh, calm⟩ := careful
  cases event with
  | loop | push | release => trivial
  | poll ready => exact fun entry _ => handler_close_first entry.2
  | call result => exact calm
  | handle reports =>
      constructor
      · intro id head ended
        simp only [readsAgain, head, ended, true_and, Bool.decide_eq_true] at once
        exact once
      · intro head accepted taken
        simp [takesName, head, accepted, taken] at fresh
  | request op result =>
      intro id same
      subst same
      have shut : (server.conns[id]?).any (fun connection => connection.conn.canClose) = false := uncalled
      rw [queues_closeConnection, shut]
      rfl
  | foreign thread op =>
      intro func queues
      cases op with
      | shutdown | queueInLoop =>
          cases queues
          rfl
      | send id messages =>
          obtain ⟨connection, -, isFunc⟩ := Option.bind_eq_some_iff.mp queues
          split_ifs at isFunc
          cases isFunc
          rfl
      | closeConnection id =>
          have shut : (server.conns[id]?).any (fun connection => connection.conn.canClose) = false := uncalled
          rw [queues_closeConnection, shut] at queues
          cases queues

def ClosedOnce (server : TcpServer) : Prop :=
  ∀ (id : Nat) (connection : Connection), server.conns[id]? = some connection →
    connection.conn.calls.count .closeCallback ≤ 1 ∧ connection.conn.calls.count .removeChannel ≤ 1

theorem Accounted.closedOnce (books : server.Accounted discipline due) : server.ClosedOnce := by
  intro id connection found
  have account := books.account id connection found
  exact ⟨account.closedOnce, account.destroyedOnce⟩

theorem step_total (order : server.InOrder discipline) {event : Event} (enabled : event.Enabled server)
    (regular : event.Regular discipline server) : ∃ next, step server event = some next ∧ next.InOrder discipline := by
  obtain ⟨next, performed, nextOrder⟩ := perform_total order enabled regular
  exact ⟨next, step_eq_some_iff.mpr ⟨enabled, performed⟩, nextOrder⟩

/-- In every run of the server with any number of other threads, with any masks
for the handlers: as long as `closeConnection` is not called on an open
connection, no handler of a closed connection reads its end again, no name is
given twice and no destroyed connection is watched again, no assertion fails and
each connection is closed at most once and destroyed at most once. -/
theorem closes_once (name : String) (residents : Residents) (runing : Bool) (events : List Event)
    {server : TcpServer} (started : start name residents runing = .ok server)
    (along : Along step (fun server event => event.Enabled server ∧ event.Careful server) server events) :
    (∃ final, run step server events = some final) ∧ Throughout step ClosedOnce server events := by
  refine run_throughout (InOrder anyThread) ClosedOnce (start_inOrder anyThread started) ?_ ?_ along
  · intro server order
    exact order.accounts.closedOnce
  · intro server event order guarded
    exact step_total order guarded.1 guarded.2.regular

/-- A hang-up closes the first connection on descriptor 7, the end of the data
the second one; in between `closeConnection` is called on the destroyed one. -/
def twoCloses : List Event :=
  [.loop .enterLoop, .loop .testQuit, .poll [(5, 1)], .handle ⟨.failed, .failed, some 7⟩,
    .foreign 1 (.send 0 (ascii "ab")), .push 1, .loop (.wakeUp 1), .loop .handlersDone, .loop .swap,
    .call (.wrote 2), .loop .callReturns, .call .failed, .loop .testQuit, .poll [(7, 0x10)],
    .handle ⟨.failed, .failed, none⟩, .loop .handlersDone, .loop .swap, .call .failed,
    .request (.closeConnection 0) .failed, .loop .callReturns, .release 0, .call .failed, .loop .testQuit,
    .poll [(5, 1)], .handle ⟨.failed, .failed, some 7⟩, .loop .handlersDone, .loop .swap, .call .failed,
    .loop .testQuit, .poll [(7, 1)], .handle ⟨.received [], .failed, none⟩, .loop .handlersDone, .loop .swap,
    .call .failed, .loop .callReturns]

theorem closes_once_twice :
    ∃ server, start "nut" ⟨3, 4, 5, by decide⟩ false = .ok server ∧
      (∃ final, run step server twoCloses = some final) ∧ Throughout step ClosedOnce server twoCloses := by
  have reached : (start "nut" ⟨3, 4, 5, by decide⟩ false).toOption.any (fun server =>
      Along step (fun server event => event.Enabled server ∧ event.Careful server) server twoCloses) = true := by
    decide +kernel
  obtain ⟨server, started, along⟩ := exists_started reached
  exact ⟨server, started, closes_once "nut" ⟨3, 4, 5, by decide⟩ false twoCloses started along⟩

/-- Once `closeConnection` has set the state, no way to close the connection is left. -/
theorem close_fails (found : server.conns[id]? = some old) (alive : old.alive = true)
    (called : old.conn.state = .disconnetcing) :
    server.inConnection id TcpConnection.handleClose = .error .assertion ∧
      server.inConnection id TcpConnection.closeConnectionInLoop = .error .assertion ∧
      server.inConnection id (TcpConnection.connectDestroyed fun conn => conn) = .error .assertion := by
  have unconnected : old.conn.state ≠ .connected := by
    rw [called]
    decide
  have fails : old.conn.handleClose = .error .assertion := by
    rw [TcpConnection.handleClose, assert, if_neg unconnected]
    rfl
  refine ⟨inConnection_error found alive fails, inConnection_error found alive ?_, inConnection_error found alive ?_⟩
  · have canClose : old.conn.canClose = true := by simp [TcpConnection.canClose, called]
    rw [TcpConnection.closeConnectionInLoop, if_pos canClose]
    exact fails
  · rw [TcpConnection.connectDestroyed, assert, if_neg unconnected]
    rfl

/-- A run on a server without other descriptors, up to a step whose assertion fails. -/
def Fails (events : List Event) (last : Event) : Prop :=
  ∃ server final, start "nut" ⟨3, 4, 5, by decide⟩ false = .ok server ∧ run step server events = some final ∧
    last.Enabled final ∧ final.perform last = .error .assertion

private theorem fails_of_any {events : List Event} {last : Event}
    (reached : (start "nut" ⟨3, 4, 5, by decide⟩ false).toOption.any (fun server =>
      ((run step server events).any fun final =>
        last.Enabled final ∧ (final.perform last).fault = some .assertion) = true) = true) : Fails events last := by
  obtain ⟨server, started, shown⟩ := exists_started reached
  obtain ⟨final, ran, shown⟩ := (Option.any_eq_true _ _).mp shown
  obtain ⟨enabled, failed⟩ := of_decide_eq_true shown
  exact ⟨server, final, started, ran, enabled, Outcome.fault_eq_some_iff.mp failed⟩

/-- The functor of a single call of `closeConnection`, the read callback of a
channel that hangs up with urgent data, and a hang-up on a destroyed connection
that is watched again. -/
theorem closes_otherwise :
    Fails [.loop .enterLoop, .loop .testQuit, .poll [(5, 1)], .handle ⟨.failed, .failed, some 7⟩,
        .request (.closeConnection 0) .failed, .loop .handlersDone, .loop .swap] (.call .failed) ∧
      Fails [.loop .enterLoop, .loop .testQuit, .poll [(5, 1)], .handle ⟨.failed, .failed, some 7⟩,
        .loop .handlersDone, .loop .swap, .call .failed, .loop .testQuit, .poll [(7, 0x12)],
        .handle ⟨.failed, .failed, none⟩] (.handle ⟨.received [], .failed, none⟩) ∧
      Fails (lateSend .failed ++ [.call .failed, .loop .testQuit, .poll [(7, 0x10)]])
        (.handle ⟨.failed, .failed, none⟩) :=
  ⟨fails_of_any (by decide +kernel), fails_of_any (by decide +kernel), fails_of_any (by decide +kernel)⟩

end TcpServer

end NutServer.Net
