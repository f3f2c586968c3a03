import NutServer.Net.TcpConnectionOperations
import NutServer.Net.TcpServerForgotten

/-!
# The connections of a server

Each connection of a server goes its own way: what becomes of it is what its own
member functions make of it, whatever the server does with the others.
-/

set_option autoImplicit false

namespace NutServer.Net

open Library

section Channels

variable {κ : Type} {epoller next : Epoller κ} {pointer : κ} {channel changed : Channel}

private theorem Epoller.updateChannel_channel (updated : epoller.updateChannel pointer channel = .ok (next, changed)) :
    changed = { channel with index := changed.index } := by
  unfold Epoller.updateChannel at updated
  split_ifs at updated
  · obtain ⟨entered, -, same⟩ := Outcome.bind_eq_ok_iff.mp updated
    cases same
    rfl
  · cases updated
    rfl
  · cases updated
    rfl

private theorem Epoller.removeChannel_channel [DecidableEq κ]
    (removed : epoller.removeChannel pointer channel = .ok (next, changed)) :
    changed = { channel with index := changed.index } := by
  obtain ⟨_, -, removed⟩ := Outcome.bind_eq_ok_iff.mp removed
  obtain ⟨_, -, removed⟩ := Outcome.bind_eq_ok_iff.mp removed
  obtain ⟨_, nothing, removed⟩ := Outcome.bind_eq_ok_iff.mp removed
  obtain ⟨⟨middle, updated⟩, updates, removed⟩ := Outcome.bind_eq_ok_iff.mp removed
  obtain ⟨_, -, same⟩ := Outcome.bind_eq_ok_iff.mp removed
  have quiet : channel.events = Channel.noneEvent := of_decide_eq_true (assert_ok_iff.mp nothing)
  have disabled : channel.disableAll = channel := by rw [Channel.disableAll, ← quiet]
  rw [disabled] at updates
  have kept := Epoller.updateChannel_channel updates
  cases same
  rw [kept]

end Channels

namespace TcpServer

open TcpConnection (Operation operateStep)

/-- The member function of a connection that a callback is. -/
def callbackOperation (reports : Reports) : Watched → Channel.Callback → Option (Nat × Operation)
  | .connection id, .close => some (id, .handleClose)
  | .connection id, .error => some (id, .handleError)
  | .connection id, .read => some (id, .handleRead reports.read)
  | .connection id, .write => some (id, .handleWrite reports.write)
  | .acceptor, _ | .wakeup, _ | .timer, _ => none

def functorOperation (result : WriteResult) : PendingFunctor → Option (Nat × Operation)
  | .user => none
  | .sendInLoop id messages => some (id, .sendInLoop messages result)
  | .shutdownInLoop id => some (id, .shutdownInLoop)
  | .closeConnectionInLoop id => some (id, .closeConnectionInLoop)
  | .connectDestroyed id => some (id, .connectDestroyed)

def requestOperation (result : WriteResult) : Request → Option (Nat × Operation)
  | .send id messages => some (id, .send messages result)
  | .shutdown id => some (id, .shutdown)
  | .closeConnection id => some (id, .closeConnection)
  | .queueInLoop => none

/-- The part of a request of another thread that writes into the connection. -/
def markOperation : Request → Option (Nat × Operation)
  | .closeConnection id => some (id, .closeConnection)
  | .send _ _ | .shutdown _ | .queueInLoop => none

def operation (server : TcpServer) : Event → Option (Nat × Operation)
  | .handle reports => server.agenda.head?.bind fun entry => callbackOperation reports entry.1 entry.2
  | .call result => server.nextFunctor.bind (functorOperation result)
  | .request op result => requestOperation result op
  | .foreign _ op => markOperation op
  | .loop _ | .poll _ | .push _ | .release _ => none

/-- What of a call is one of this connection. -/
def only (id : Nat) (called : Option (Nat × Operation)) : List Operation :=
  (called.filter fun call => call.1 = id).toList.map Prod.snd

/-- The member functions of a connection that are called in a run. -/
def served (id : Nat) : TcpServer → List Event → List Operation
  | _, [] => []
  | server, event :: rest =>
      only id (server.operation event) ++ (step server event).elim [] fun next => served id next rest

variable {server next : TcpServer} {id : Nat} {old new : Connection} {conn : TcpConnection}
  {channel changed : Channel} {body : TcpConnection → Outcome TcpConnection}

/-- The two servers have the same connections, under the same names. -/
structure SameConns (server next : TcpServer) : Prop where
  name : next.name = server.name
  nextConnId : next.nextConnId = server.nextConnId
  conns : next.conns = server.conns

theorem SameConns.refl (server : TcpServer) : SameConns server server := ⟨rfl, rfl, rfl⟩

theorem SameConns.trans {middle : TcpServer} (before : SameConns server middle) (after : SameConns middle next) :
    SameConns server next where
  name := after.name.trans before.name
  nextConnId := after.nextConnId.trans before.nextConnId
  conns := after.conns.trans before.conns

private theorem obey_spec {call : Call} (obeyed : server.obey id channel call = .ok (next, changed)) :
    SameConns server next ∧ changed = { channel.after call with index := changed.index } := by
  cases call with
  | updateChannel events =>
      obtain ⟨⟨epoller, updated⟩, updates, same⟩ := Outcome.bind_eq_ok_iff.mp obeyed
      cases same
      exact ⟨⟨rfl, rfl, rfl⟩, Epoller.updateChannel_channel updates⟩
  | removeChannel =>
      obtain ⟨⟨epoller, removed⟩, removes, same⟩ := Outcome.bind_eq_ok_iff.mp obeyed
      cases same
      exact ⟨⟨rfl, rfl, rfl⟩, Epoller.removeChannel_channel removes⟩
  | closeCallback =>
      obtain ⟨closed, closes, same⟩ := Outcome.bind_eq_ok_iff.mp obeyed
      cases same
      refine ⟨?_, rfl⟩
      unfold removeConnection at closes
      split at closes
      · obtain ⟨_, -, same⟩ := Outcome.bind_eq_ok_iff.mp closes
        cases same
        exact ⟨rfl, rfl, rfl⟩
      · cases closes
  | send | write | shutdown | getSocketError =>
      cases obeyed
      exact ⟨.refl server, rfl⟩

private theorem foldl_after_index {made : List Call} {index : Int} :
    made.foldl Channel.after { channel with index } = { made.foldl Channel.after channel with index } := by
  induction made generalizing channel with
  | nil => rfl
  | cons call rest ih =>
      have moved : ({ channel with index } : Channel).after call = { channel.after call with index } := by
        cases call <;> rfl
      rw [List.foldl_cons, List.foldl_cons, moved]
      exact ih

private theorem obeyAll_conns {made : List Call} (obeyed : server.obeyAll id channel made = .ok (next, changed)) :
    SameConns server next ∧
      changed = { made.foldl Channel.after channel with index := changed.index } := by
  induction made generalizing server channel with
  | nil =>
      cases obeyed
      exact ⟨.refl next, rfl⟩
  | cons call rest ih =>
      obtain ⟨⟨middle, passed⟩, obeys, obeyed⟩ := Outcome.bind_eq_ok_iff.mp obeyed
      obtain ⟨same, shape⟩ := obey_spec obeys
      obtain ⟨restSame, restShape⟩ := ih obeyed
      refine ⟨same.trans restSame, ?_⟩
      rw [shape, foldl_after_index] at restShape
      exact restShape

/-- A function of one connection changes that one, as it would by itself but for
the index of the channel, and no other. -/
theorem inConnection_conns (recorded : ∀ conn next, body conn = .ok next → conn.Recorded next)
    (called : server.inConnection id body = .ok next) :
    ∃ old conn index, server.conns[id]? = some old ∧ body old.conn = .ok conn ∧
      SameConns (server.store id { old with conn := conn.setIndex index }) next := by
  cases found : server.conns[id]? with
  | none =>
      rw [inConnection, found] at called
      cases called
  | some old =>
      by_cases alive : old.alive = true
      · rw [inConnection, found] at called
        simp only [if_pos alive] at called
        obtain ⟨conn, operated, called⟩ := Outcome.bind_eq_ok_iff.mp called
        obtain ⟨⟨middle, changed⟩, obeyed, same⟩ := Outcome.bind_eq_ok_iff.mp called
        obtain ⟨made, calls, channel⟩ := recorded old.conn conn operated
        rw [calls, List.drop_left] at obeyed
        obtain ⟨kept, shape⟩ := obeyAll_conns obeyed
        rw [← channel] at shape
        cases same
        refine ⟨old, conn, changed.index, rfl, operated, kept.name, kept.nextConnId, ?_⟩
        have shown : ({ conn with channel := changed } : TcpConnection) = conn.setIndex changed.index := by
          rw [shape]
          rfl
        simp only [store, kept.conns, shown]
      · rw [inConnection, found] at called
        simp only [if_neg alive] at called
        cases called

/-- The new connection is numbered by the counter, and the others stay. -/
theorem newConnection_conns {sockfd : Nat} (accepted : server.newConnection sockfd = .ok next) :
    ∃ index : Int, SameConns { server with
      nextConnId := increment server.nextConnId
      conns := server.conns ++ [⟨server.name ++ "#" ++ server.nextConnId.repr,
        (TcpConnection.opened sockfd).setIndex index, true⟩] } next := by
  have recorded : ∀ conn next : TcpConnection, conn.connectEstablished (fun conn => conn) = .ok next →
      conn.Recorded next := by
    intro conn next established
    obtain ⟨_, -, same⟩ := Outcome.bind_eq_ok_iff.mp established
    cases same
    exact .single rfl rfl
  obtain ⟨old, conn, index, found, established, same⟩ := inConnection_conns recorded accepted
  rw [List.getElem?_concat_length] at found
  cases found
  cases established
  simp only [store, List.set_append_right _ _ (Nat.le_refl _), Nat.sub_self, List.set_cons_zero] at same
  exact ⟨index, same.name, same.nextConnId, same.conns⟩

/-- What a step does with the connections: it calls one of them, accepts one,
releases one or leaves them alone. -/
inductive Performs (server next : TcpServer) : Option (Nat × Operation) → Prop where
  | operates {id : Nat} {operation : Operation} {entered reached : TcpServer} (before : SameConns server entered)
      (called : entered.inConnection id (·.operate operation) = .ok reached) (behind : SameConns reached next) :
      Performs server next (some (id, operation))
  | accepts {sockfd : Nat} {entered : TcpServer} (before : SameConns server entered)
      (accepted : entered.newConnection sockfd = .ok next) : Performs server next none
  | releases {id : Nat} (released : server.release id = .ok next) : Performs server next none
  | rests (same : SameConns server next) : Performs server next none

private theorem performs_operation {operation : Operation}
    (called : server.inConnection id (·.operate operation) = .ok next) :
    Performs server next (some (id, operation)) := .operates (.refl server) called (.refl next)

/-- The functions of the server may begin in the middle of a step. -/
theorem callback_performs {entered : TcpServer} {reports : Reports} {watched : Watched} {callback : Channel.Callback}
    (called : entered.callback reports watched callback = .ok next) (before : SameConns server entered) :
    Performs server next (callbackOperation reports watched callback) := by
  cases watched with
  | connection id => cases callback <;> exact .operates before called (.refl next)
  | acceptor =>
      cases callback with
      | read =>
          cases accepted : reports.accepted with
          | none =>
              simp only [TcpServer.callback, accepted] at called
              cases called
              exact .rests before
          | some connfd =>
              simp only [TcpServer.callback, accepted] at called
              exact .accepts before called
      | close | error | write =>
          cases called
          exact .rests before
  | wakeup | timer =>
      cases callback <;>
        · cases called
          exact .rests ⟨before.name, before.nextConnId, before.conns⟩

private theorem apply_performs {entered : TcpServer} {result : WriteResult} {func : PendingFunctor}
    (called : entered.apply result func = .ok next) (before : SameConns server entered) :
    Performs server next (functorOperation result func) := by
  cases func with
  | user =>
      cases called
      exact .rests before
  | sendInLoop | shutdownInLoop | closeConnectionInLoop | connectDestroyed =>
      exact .operates before called (.refl next)

private theorem request_performs {result : WriteResult} {op : Request} (called : server.request result op = .ok next) :
    Performs server next (requestOperation result op) := by
  cases op with
  | send | shutdown => exact performs_operation called
  | queueInLoop =>
      cases called
      exact .rests ⟨rfl, rfl, rfl⟩
  | closeConnection id =>
      obtain ⟨closed, closes, called⟩ := Outcome.bind_eq_ok_iff.mp called
      refine .operates (.refl server) closes ?_
      split at called <;>
        · cases called
          exact ⟨rfl, rfl, rfl⟩

private theorem foreign_performs {thread : Nat} {op : Request} (called : server.foreignRequest thread op = .ok next) :
    Performs server next (markOperation op) := by
  obtain ⟨marked, marks, called⟩ := Outcome.bind_eq_ok_iff.mp called
  have behind : SameConns marked next := by
    split at called <;>
      · cases called
        exact ⟨rfl, rfl, rfl⟩
  cases op with
  | closeConnection id => exact .operates (.refl server) marks behind
  | send | shutdown | queueInLoop =>
      cases marks
      exact .rests behind

theorem perform_performs {event : Event} (performed : server.perform event = .ok next) :
    Performs server next (server.operation event) := by
  cases event with
  | loop event =>
      obtain ⟨loop, -, same⟩ := Outcome.bind_pure_eq_ok_iff.mp performed
      cases same
      exact .rests ⟨rfl, rfl, rfl⟩
  | poll ready =>
      obtain ⟨loop, -, same⟩ := Outcome.bind_pure_eq_ok_iff.mp performed
      cases same
      exact .rests ⟨rfl, rfl, rfl⟩
  | handle reports =>
      cases agenda : server.agenda with
      | nil =>
          simp only [perform, agenda] at performed
          cases performed
          rw [operation, agenda]
          exact .rests (.refl server)
      | cons entry rest =>
          simp only [perform, agenda] at performed
          rw [operation, agenda]
          exact callback_performs performed ⟨rfl, rfl, rfl⟩
  | call result =>
      obtain ⟨loop, -, performed⟩ := Outcome.bind_eq_ok_iff.mp performed
      rw [operation]
      cases selected : server.nextFunctor with
      | none =>
          simp only [selected] at performed
          cases performed
          exact .rests ⟨rfl, rfl, rfl⟩
      | some func =>
          simp only [selected] at performed
          exact apply_performs performed ⟨rfl, rfl, rfl⟩
  | request op result => exact request_performs performed
  | foreign thread op => exact foreign_performs performed
  | push thread =>
      rw [perform] at performed
      cases found : server.callers.lookup thread with
      | none =>
          simp only [found] at performed
          cases performed
          exact .rests (.refl server)
      | some func =>
          simp only [found] at performed
          obtain ⟨loop, -, same⟩ := Outcome.bind_pure_eq_ok_iff.mp performed
          cases same
          exact .rests ⟨rfl, rfl, rfl⟩
  | release id => exact .releases performed

/-- What a step makes of the connections. -/
inductive Moves (server next : TcpServer) : Option (Nat × Operation) → Prop where
  | operates {id : Nat} {operation : Operation} {old : Connection} {conn : TcpConnection} {index : Int}
      (found : server.conns[id]? = some old) (operated : old.conn.operate operation = .ok conn)
      (conns : next.conns = server.conns.set id { old with conn := conn.setIndex index }) :
      Moves server next (some (id, operation))
  | accepts {name : String} {sockfd : Nat} {index : Int}
      (conns : next.conns = server.conns ++ [⟨name, (TcpConnection.opened sockfd).setIndex index, true⟩]) :
      Moves server next none
  | releases {id : Nat} {old : Connection} (found : server.conns[id]? = some old)
      (conns : next.conns = server.conns.set id { old with alive := false }) : Moves server next none
  | rests (conns : next.conns = server.conns) : Moves server next none

theorem Performs.moves {called : Option (Nat × Operation)} (performs : Performs server next called) :
    Moves server next called := by
  cases performs with
  | @operates id operation entered reached before called behind =>
      obtain ⟨old, conn, index, found, operated, same⟩ :=
        inConnection_conns (fun _ _ => TcpConnection.operate_recorded) called
      have conns : next.conns = server.conns.set id { old with conn := conn.setIndex index } := by
        rw [behind.conns, same.conns, store, before.conns]
      rw [before.conns] at found
      exact .operates found operated conns
  | @accepts sockfd entered before accepted =>
      obtain ⟨index, same⟩ := newConnection_conns accepted
      have conns := same.conns
      simp only [before.conns] at conns
      exact .accepts conns
  | @releases id released =>
      cases found : server.conns[id]? with
      | none =>
          rw [release, found] at released
          cases released
      | some old =>
          rw [release, found] at released
          cases released
          exact .releases found rfl
  | rests same => exact .rests same.conns

theorem perform_moves {event : Event} (performed : server.perform event = .ok next) :
    Moves server next (server.operation event) := (perform_performs performed).moves

theorem only_self {operation : Operation} : only id (some (id, operation)) = [operation] := by simp [only]

theorem only_of_ne {other : Nat} {operation : Operation} (apart : other ≠ id) :
    only id (some (other, operation)) = [] := by simp [only, apart]

/-- A connection later on: what these operations make of it by themselves, and
the text they take behind the text it had. -/
structure Alone (old new : Connection) (operations : List Operation) : Prop where
  conn : ∃ conn, run operateStep old.conn operations = some conn ∧
    conn.setIndex new.conn.channel.index = new.conn
  stream : old.conn.Buffered → new.conn.Buffered ∧
    new.conn.stream = old.conn.stream ++ old.conn.allTaken operations

theorem Alone.unchanged (same : new.conn = old.conn) : Alone old new [] where
  conn := ⟨old.conn, rfl, by rw [same, TcpConnection.setIndex_self]⟩
  stream buffered := by
    rw [same]
    exact ⟨buffered, (List.append_nil _).symm⟩

theorem Alone.operated {operation : Operation} {index : Int} (honest : old.conn.Honest operation)
    (operated : old.conn.operate operation = .ok conn) :
    Alone old { old with conn := conn.setIndex index } [operation] where
  conn := by
    have stepped : operateStep old.conn operation = some conn := Outcome.toOption_eq_some_iff.mpr operated
    exact ⟨conn, by rw [run_cons, stepped]; rfl, rfl⟩
  stream buffered := by
    obtain ⟨kept, shown⟩ := TcpConnection.operate_stream buffered honest operated
    have stepped : operateStep old.conn operation = some conn := Outcome.toOption_eq_some_iff.mpr operated
    refine ⟨⟨kept.input, kept.output⟩, ?_⟩
    rw [TcpConnection.allTaken, stepped, Option.elim_some, TcpConnection.allTaken, List.append_nil, ← shown]
    rfl

theorem Alone.trans {middle : Connection} {first second : List Operation} (before : Alone old middle first)
    (after : Alone middle new second) : Alone old new (first ++ second) := by
  obtain ⟨conn, ran, same⟩ := before.conn
  obtain ⟨last, ranLast, sameLast⟩ := after.conn
  rw [← same] at ranLast
  obtain ⟨other, ranOther, sameOther⟩ := TcpConnection.run_setIndex ranLast
  refine ⟨⟨other, ?_, ?_⟩, fun buffered => ?_⟩
  · rw [run_append, ran]
    exact ranOther
  · exact (congrArg (TcpConnection.setIndex · new.conn.channel.index) sameOther).trans sameLast
  · obtain ⟨kept, shown⟩ := before.stream buffered
    obtain ⟨keptLast, shownLast⟩ := after.stream kept
    refine ⟨keptLast, ?_⟩
    rw [shownLast, shown, TcpConnection.allTaken_append ran, List.append_assoc, ← same,
      TcpConnection.allTaken_setIndex]

/-- What an enabled event reports to a connection is what its system calls can report. -/
theorem honest_of_enabled {event : Event} {operation : Operation} (enabled : event.Enabled server)
    (called : server.operation event = some (id, operation)) (found : server.conns[id]? = some old) :
    old.conn.Honest operation := by
  cases event with
  | loop | poll | push | release => cases called
  | handle reports =>
      obtain ⟨⟨watched, callback⟩, next, called⟩ := Option.bind_eq_some_iff.mp called
      have honest := enabled.2.2 _ next
      cases watched with
      | acceptor | wakeup | timer => cases called
      | connection other =>
          cases callback with
          | close | error =>
              cases called
              trivial
          | read =>
              cases called
              simpa [TcpServer.honest, found, TcpConnection.Honest] using honest
          | write =>
              cases called
              intro writing
              simpa [TcpServer.honest, found, writing] using honest
  | call result =>
      obtain ⟨func, -, called⟩ := Option.bind_eq_some_iff.mp called
      cases func with
      | user => cases called
      | sendInLoop | shutdownInLoop | closeConnectionInLoop | connectDestroyed =>
          cases called
          trivial
  | request op result =>
      cases op with
      | queueInLoop => cases called
      | send | shutdown | closeConnection =>
          cases called
          trivial
  | foreign thread op =>
      cases op with
      | send | shutdown | queueInLoop => cases called
      | closeConnection other =>
          cases called
          trivial

theorem Moves.alone {called : Option (Nat × Operation)} (moves : Moves server next called)
    (found : server.conns[id]? = some old)
    (honest : ∀ operation, called = some (id, operation) → old.conn.Honest operation) :
    ∃ new, next.conns[id]? = some new ∧ Alone old new (only id called) := by
  cases moves with
  | @operates other operation touched conn index isFound operated conns =>
      rw [getElem?_changed isFound conns]
      by_cases same : id = other
      · subst same
        cases isFound.symm.trans found
        rw [if_pos rfl, only_self]
        exact ⟨_, rfl, .operated (honest _ rfl) operated⟩
      · rw [if_neg same, only_of_ne (Ne.symm same)]
        exact ⟨old, found, .unchanged rfl⟩
  | accepts conns => exact ⟨old, getElem?_before conns found, .unchanged rfl⟩
  | @releases other released isFound conns =>
      rw [getElem?_changed isFound conns]
      by_cases same : id = other
      · subst same
        cases isFound.symm.trans found
        rw [if_pos rfl]
        exact ⟨_, rfl, .unchanged rfl⟩
      · rw [if_neg same]
        exact ⟨old, found, .unchanged rfl⟩
  | rests conns =>
      rw [conns]
      exact ⟨old, found, .unchanged rfl⟩

/-- A connection that was not there is not called, and begins as it is accepted. -/
theorem Moves.absent {called : Option (Nat × Operation)} (moves : Moves server next called)
    (absent : server.conns[id]? = none) :
    only id called = [] ∧ ∀ new, next.conns[id]? = some new →
      ∃ sockfd, (TcpConnection.opened sockfd).setIndex new.conn.channel.index = new.conn := by
  cases moves with
  | @operates other operation touched conn index isFound operated conns =>
      have apart : id ≠ other := by
        intro same
        subst same
        cases absent.symm.trans isFound
      refine ⟨only_of_ne (Ne.symm apart), fun new present => ?_⟩
      rw [getElem?_changed isFound conns, if_neg apart] at present
      cases absent.symm.trans present
  | accepts conns =>
      refine ⟨rfl, fun new present => ?_⟩
      cases getElem?_appended conns present with
      | inl last =>
          obtain ⟨-, same⟩ := last
          subst same
          exact ⟨_, rfl⟩
      | inr before => cases absent.symm.trans before
  | @releases other released isFound conns =>
      have apart : id ≠ other := by
        intro same
        subst same
        cases absent.symm.trans isFound
      refine ⟨rfl, fun new present => ?_⟩
      rw [getElem?_changed isFound conns, if_neg apart] at present
      cases absent.symm.trans present
  | rests conns =>
      refine ⟨rfl, fun new present => ?_⟩
      rw [conns] at present
      cases absent.symm.trans present

theorem served_cons {event : Event} {rest : List Event} (stepped : step server event = some next) :
    served id server (event :: rest) = only id (server.operation event) ++ served id next rest := by
  rw [served, stepped, Option.elim_some]

theorem run_alone {events : List Event} {final : TcpServer} (ran : run step server events = some final)
    (found : server.conns[id]? = some old) :
    ∃ new, final.conns[id]? = some new ∧ Alone old new (served id server events) := by
  induction events generalizing server old with
  | nil =>
      cases ran
      exact ⟨old, found, .unchanged rfl⟩
  | cons event rest ih =>
      obtain ⟨next, stepped, ranRest⟩ := Option.bind_eq_some_iff.mp ran
      obtain ⟨enabled, performed⟩ := step_eq_some_iff.mp stepped
      obtain ⟨middle, present, alone⟩ := (perform_moves performed).alone found
        fun operation called => honest_of_enabled enabled called found
      obtain ⟨new, isLast, later⟩ := ih ranRest present
      rw [served_cons stepped]
      exact ⟨new, isLast, alone.trans later⟩

theorem run_accepted {events : List Event} {final : TcpServer} (ran : run step server events = some final)
    (absent : server.conns[id]? = none) (found : final.conns[id]? = some new) :
    ∃ sockfd first, (TcpConnection.opened sockfd).setIndex first.conn.channel.index = first.conn ∧
      Alone first new (served id server events) := by
  induction events generalizing server with
  | nil =>
      cases ran
      cases absent.symm.trans found
  | cons event rest ih =>
      obtain ⟨next, stepped, ranRest⟩ := Option.bind_eq_some_iff.mp ran
      obtain ⟨-, performed⟩ := step_eq_some_iff.mp stepped
      obtain ⟨uncalled, begins⟩ := (perform_moves performed).absent absent
      rw [served_cons stepped, uncalled, List.nil_append]
      cases present : next.conns[id]? with
      | none => exact ih ranRest present
      | some first =>
          obtain ⟨sockfd, isOpened⟩ := begins first present
          obtain ⟨other, isLast, alone⟩ := run_alone ranRest present
          cases found.symm.trans isLast
          exact ⟨sockfd, first, isOpened, alone⟩

/-- In every run of the server with any number of other threads: a connection is
what its own member functions make of it by themselves, but for the index of the
channel, whatever happens on the other connections; and what the kernel took of
it, followed by what waits, is what they were given to write, in their order. -/
theorem connections_apart (name : String) (residents : Residents) (runing : Bool) (events : List Event)
    {server final : TcpServer} (started : start name residents runing = .ok server)
    (ran : run step server events = some final) (id : Nat) (connection : Connection)
    (found : final.conns[id]? = some connection) :
    ∃ sockfd conn, run operateStep (TcpConnection.opened sockfd) (served id server events) = some conn ∧
      conn.setIndex connection.conn.channel.index = connection.conn ∧
      connection.conn.calls.flatMap Call.accepted ++ connection.conn.outputBuffer.readable =
        (TcpConnection.opened sockfd).allTaken (served id server events) := by
  obtain ⟨other, same, -, -, -, conns, -⟩ := start_spec name residents runing
  cases started.symm.trans same
  have absent : server.conns[id]? = none := by rw [conns, List.getElem?_nil]
  obtain ⟨sockfd, first, isOpened, alone⟩ := run_accepted ran absent found
  obtain ⟨conn, ranFirst, isLast⟩ := alone.conn
  rw [← isOpened] at ranFirst
  obtain ⟨plain, ranPlain, samePlain⟩ := TcpConnection.run_setIndex ranFirst
  have buffered : first.conn.Buffered := by
    rw [← isOpened]
    exact ⟨(TcpConnection.opened_buffered sockfd).input, (TcpConnection.opened_buffered sockfd).output⟩
  have silent : first.conn.stream = [] := by
    rw [← isOpened]
    exact TcpConnection.opened_stream sockfd
  have shown := (alone.stream buffered).2
  rw [silent, List.nil_append, ← isOpened, TcpConnection.allTaken_setIndex] at shown
  refine ⟨sockfd, plain, ranPlain, ?_, shown⟩
  exact (congrArg (TcpConnection.setIndex · connection.conn.channel.index) samePlain).trans isLast

/-- Two connections that are written to from both threads. -/
def twoConnections : List Event :=
  [.loop .enterLoop, .loop .testQuit, .poll [(5, 1)], .handle ⟨.failed, .failed, some 7⟩, .loop .handlersDone,
    .loop .swap, .call .failed, .loop .testQuit, .foreign 1 (.send 0 (ascii "ef")), .poll [(5, 1), (7, 1)],
    .handle ⟨.failed, .failed, some 8⟩, .request (.send 0 (ascii "ab")) (.wrote 1), .push 1,
    .request (.send 1 (ascii "cd")) .failed, .handle ⟨.received (ascii "xyz"), .failed, none⟩,
    .loop .handlersDone, .loop .swap, .call .failed, .loop .callReturns, .call .failed, .loop (.wakeUp 1),
    .loop .testQuit, .poll [(8, 4), (7, 4)], .handle ⟨.failed, .wrote 1, none⟩, .handle ⟨.failed, .wrote 3, none⟩]

theorem connections_apart_two : ∃ server final connection sockfd,
    start "nut" ⟨3, 4, 5, by decide⟩ false = .ok server ∧ run step server twoConnections = some final ∧
    final.conns[0]? = some connection ∧
    connection.conn.calls.flatMap Call.accepted ++ connection.conn.outputBuffer.readable =
      (TcpConnection.opened sockfd).allTaken [.send (ascii "ab") (.wrote 1),
        .handleRead (.received (ascii "xyz")), .sendInLoop (ascii "ef") .failed, .handleWrite (.wrote 3)] := by
  have reached : (start "nut" ⟨3, 4, 5, by decide⟩ false).toOption.any (fun server =>
      (run step server twoConnections).any (fun final => final.conns[0]?.isSome) ∧
        served 0 server twoConnections = [.send (ascii "ab") (.wrote 1), .handleRead (.received (ascii "xyz")),
          .sendInLoop (ascii "ef") .failed, .handleWrite (.wrote 3)]) = true := by
    decide +kernel
  obtain ⟨server, started, ends, isServed⟩ := exists_started reached
  obtain ⟨final, ran, present⟩ := (Option.any_eq_true _ _).mp ends
  obtain ⟨connection, found⟩ := Option.isSome_iff_exists.mp present
  obtain ⟨sockfd, _, _, _, shown⟩ :=
    connections_apart "nut" ⟨3, 4, 5, by decide⟩ false twoConnections started ran 0 connection found
  rw [isServed] at shown
  exact ⟨server, final, connection, sockfd, started, ran, found, shown⟩

end TcpServer

end NutServer.Net
