import NutServer.Net.TcpServerForgotten

/-! What the server owes to each connection: its name in `connections_` until it
is closed, and one `connectDestroyed` from then on. -/

set_option autoImplicit false

namespace NutServer.Net

/-- The callbacks of a channel that can end in `handleClose`. -/
def Channel.Callback.mayClose : Channel.Callback → Bool
  | .close | .read => true
  | .error | .write => false

def PendingFunctor.isConnectDestroyed : PendingFunctor → Bool
  | .connectDestroyed _ => true
  | .user | .sendInLoop _ _ | .shutdownInLoop _ | .closeConnectionInLoop _ => false

namespace Connection

/-- `closeCallback_` has been called. -/
def closed (connection : Connection) : Bool := connection.conn.calls.contains .closeCallback

/-- A connection for which so many `connectDestroyed` are still to be called. -/
structure Accounted (connection : Connection) (due : Nat) : Prop where
  closedOnce : connection.conn.calls.count .closeCallback ≤ 1
  destroyedOnce : connection.conn.calls.count .removeChannel ≤ 1
  ordered : connection.destroyed = true → connection.closed = true
  state : connection.destroyed = false → connection.conn.state = .connected
  referenced : connection.destroyed = false → connection.alive = true
  registered : connection.destroyed = false → connection.conn.channel.index ≠ -1
  due : due = if connection.closed = true ∧ connection.destroyed = false then 1 else 0

variable {connection old new : Connection} {due : Nat} {made : List Call}

private theorem count_of_open (unclosed : connection.closed = false) :
    connection.conn.calls.count .closeCallback = 0 := by
  rw [List.count_eq_zero, ← List.contains_iff_mem, Bool.not_eq_true]
  exact unclosed

private theorem count_of_living (living : connection.destroyed = false) :
    connection.conn.calls.count .removeChannel = 0 := by
  rw [List.count_eq_zero, ← List.contains_iff_mem, Bool.not_eq_true]
  exact living

theorem Accounted.living (account : connection.Accounted due) (unclosed : connection.closed = false) :
    connection.destroyed = false := by
  rw [← Bool.not_eq_true]
  intro gone
  cases (account.ordered gone).symm.trans unclosed

/-- A `connectDestroyed` is owed to closed connections that it has not reached. -/
private theorem Accounted.owed (account : connection.Accounted due) (some : due ≠ 0) :
    connection.closed = true ∧ connection.destroyed = false := by
  by_contra settled
  exact some (account.due.trans (if_neg settled))

theorem Kept.count (kept : old.Kept new made) {call : Call} (ending : call.isEnding = true) :
    new.conn.calls.count call = old.conn.calls.count call := by
  have absent : call ∉ made := by
    intro member
    cases ending.symm.trans (kept.goesOn call member)
  rw [kept.calls, List.count_append, List.count_eq_zero_of_not_mem absent, Nat.add_zero]

theorem Kept.closed (kept : old.Kept new made) : new.closed = old.closed := by
  have same : 0 < new.conn.calls.count .closeCallback ↔ 0 < old.conn.calls.count .closeCallback := by
    rw [kept.count rfl]
  rw [List.count_pos_iff, List.count_pos_iff, ← List.contains_iff_mem, ← List.contains_iff_mem] at same
  exact Bool.eq_iff_iff.mpr same

theorem Kept.accounted (kept : old.Kept new made) (account : old.Accounted due) : new.Accounted due where
  closedOnce := by
    rw [kept.count rfl]
    exact account.closedOnce
  destroyedOnce := by
    rw [kept.count rfl]
    exact account.destroyedOnce
  ordered := by
    rw [kept.destroyed, kept.closed]
    exact account.ordered
  state living := by
    rw [kept.destroyed] at living
    exact kept.state.trans (account.state living)
  referenced _ := kept.alive
  registered living := by
    rw [kept.destroyed] at living
    cases updated : made.any Call.isUpdate with
    | true => exact kept.updates updated
    | false =>
        rw [kept.silent updated]
        exact account.registered living
  due := by
    rw [kept.closed, kept.destroyed]
    exact account.due

private theorem closing_closed (connection : Connection) (conn : TcpConnection) (index : Int) :
    ({ connection with conn := TcpServer.closing conn index } : Connection).closed = true := by
  simp [closed, TcpServer.closing, TcpConnection.call]

private theorem closing_accounted {conn : TcpConnection} {index : Int} (account : old.Accounted due)
    (unclosed : old.closed = false) (calls : conn.calls = old.conn.calls) (state : conn.state = old.conn.state)
    (known : index ≠ -1) : ({ old with conn := TcpServer.closing conn index } : Connection).Accounted (due + 1) := by
  have living := account.living unclosed
  let new : Connection := { old with conn := TcpServer.closing conn index }
  have made : new.conn.calls = old.conn.calls ++ [.updateChannel Channel.noneEvent, .closeCallback] := by
    rw [← calls]
    exact List.append_assoc ..
  have stillLiving : new.destroyed = false := (TcpServer.closing_destroyed calls).trans living
  have nothing : due = 0 := account.due.trans (if_neg (by simp [unclosed]))
  constructor
  · rw [made, List.count_append, count_of_open unclosed]
    decide
  · rw [made, List.count_append, count_of_living living]
    decide
  · intro _
    exact closing_closed old conn index
  · intro _
    exact state.trans (account.state living)
  · intro _
    exact account.referenced living
  · intro _
    exact known
  · rw [nothing, if_pos ⟨closing_closed old conn index, stillLiving⟩]

private theorem destroyed_accounted (account : old.Accounted due) (owed : due ≠ 0) :
    ({ old with conn := TcpServer.destroyed old.conn } : Connection).Accounted 0 := by
  obtain ⟨isClosed, living⟩ := account.owed owed
  let new : Connection := { old with conn := TcpServer.destroyed old.conn }
  have made : new.conn.calls = old.conn.calls ++ [.updateChannel Channel.noneEvent, .removeChannel] :=
    List.append_assoc ..
  have gone : new.destroyed = true := by
    rw [destroyed, made, List.contains_append]
    simp
  have stillClosed : new.closed = true := by
    rw [closed, made, List.contains_append, ← closed, isClosed, Bool.true_or]
  have notLiving : new.destroyed ≠ false := by simp [gone]
  constructor
  · rw [made, List.count_append]
    exact account.closedOnce
  · rw [made, List.count_append, count_of_living living]
    decide
  · exact fun _ => stillClosed
  · exact fun living => absurd living notLiving
  · exact fun living => absurd living notLiving
  · exact fun living => absurd living notLiving
  · rw [if_neg (fun both => notLiving both.2)]

private theorem accepted_accounted (name : String) {conn : TcpConnection} (state : conn.state = .connected)
    (calls : ∃ events, conn.calls = [.updateChannel events]) (known : conn.channel.index ≠ -1) :
    (⟨name, conn, true⟩ : Connection).closed = false ∧ (⟨name, conn, true⟩ : Connection).Accounted 0 := by
  obtain ⟨events, calls⟩ := calls
  have unclosed : (⟨name, conn, true⟩ : Connection).closed = false := by simp [closed, calls]
  have living : (⟨name, conn, true⟩ : Connection).destroyed = false := by simp [destroyed, calls]
  refine ⟨unclosed, ?_⟩
  constructor
  · rw [count_of_open unclosed]
    exact Nat.zero_le 1
  · rw [count_of_living living]
    exact Nat.zero_le 1
  · intro gone
    cases living.symm.trans gone
  · exact fun _ => state
  · exact fun _ => rfl
  · exact fun _ => known
  · rw [if_neg (by simp [unclosed])]

theorem Accounted.released (account : connection.Accounted due) (gone : connection.destroyed = true) :
    ({ connection with alive := false } : Connection).Accounted due where
  closedOnce := account.closedOnce
  destroyedOnce := account.destroyedOnce
  ordered := account.ordered
  state := account.state
  referenced living := by cases gone.symm.trans living
  registered := account.registered
  due := account.due

end Connection

namespace TcpServer

/-- What the surroundings of a server keep to. -/
structure Discipline where
  /-- These callbacks come to connections that are not closed. -/
  closing : Channel.Callback → Bool
  /-- These functors are queued by the application. -/
  queued : PendingFunctor → Bool
  close : closing .close = true
  user : queued .user = true
  closeConnectionInLoop : ∀ id, queued (.closeConnectionInLoop id) = false
  connectDestroyed : ∀ id, queued (.connectDestroyed id) = false

def isClosed (server : TcpServer) (id : Nat) : Bool :=
  (server.conns[id]?).any fun connection => connection.closed

/-- The name of the next connection. -/
def connName (server : TcpServer) : String := server.name ++ "#" ++ server.nextConnId.repr

/-- The name under which a connection has to be found until it is closed. -/
def openName (server : TcpServer) (id : Nat) : Option String :=
  (server.conns[id]?).bind fun connection => if connection.closed then none else some connection.name

/-- `connections_` holds the connections that are not closed. -/
def Listed (server : TcpServer) : Prop :=
  ∀ name id, server.connections[name]? = some id ↔ server.openName id = some name

/-- A server that still calls the functors `due`. -/
structure Accounted (discipline : Discipline) (due : List PendingFunctor) (server : TcpServer) : Prop where
  listed : server.Listed
  account : ∀ (id : Nat) (connection : Connection), server.conns[id]? = some connection →
    connection.Accounted (due.count (.connectDestroyed id))
  unclosed : ∀ id callback, (.connection id, callback) ∈ server.agenda → discipline.closing callback = true →
    server.isClosed id = false
  ordered : server.agenda.Pairwise fun first second =>
    first.1 = second.1 → first.2.mayClose = true → discipline.closing second.2 = false
  orderly : server.loop.Orderly PendingFunctor.isConnectDestroyed
  due : ∀ func ∈ due, discipline.queued func = true ∨ func.isConnectDestroyed = true
  callers : ∀ func ∈ server.callers.map Prod.snd, discipline.queued func = true

variable {discipline : Discipline} {server next : TcpServer} {id : Nat} {old new connection : Connection}
  {due later hand : List PendingFunctor} {effect : Effect} {outcome : Outcome TcpServer}

theorem isClosed_of_found (found : server.conns[id]? = some connection) :
    server.isClosed id = connection.closed := by
  simp [isClosed, found]

private theorem openName_of_found (found : server.conns[id]? = some connection) :
    server.openName id = if connection.closed then none else some connection.name := by
  simp [openName, found]

private theorem openName_changed (found : server.conns[id]? = some old) (conns : next.conns = server.conns.set id new)
    {other : Nat} : next.openName other =
      if other = id then (if new.closed then none else some new.name) else server.openName other := by
  rw [openName, getElem?_changed found conns]
  by_cases same : other = id
  · rw [if_pos same, if_pos same, Option.bind_some]
  · rw [if_neg same, if_neg same, openName]

private theorem openName_appended (conns : next.conns = server.conns ++ [new]) (unclosed : new.closed = false) {other : Nat} :
    next.openName other = if other = server.conns.length then some new.name else server.openName other := by
  split_ifs with last
  · subst last
    have found : next.conns[server.conns.length]? = some new := by simp [conns]
    simp [openName_of_found found, unclosed]
  · have same : next.conns[other]? = server.conns[other]? := by
      rw [conns, List.getElem?_append]
      split_ifs with before
      · rfl
      · rw [List.getElem?_eq_none (by rw [List.length_singleton]; omega), List.getElem?_eq_none (by omega)]
    rw [openName, same, openName]

theorem Listed.kept (listed : server.Listed) (connections : next.connections = server.connections)
    (names : ∀ id, next.openName id = server.openName id) : next.Listed := by
  intro name id
  rw [connections, names]
  exact listed name id

theorem Listed.changed (listed : server.Listed) (found : server.conns[id]? = some old)
    (conns : next.conns = server.conns.set id new) (name : new.name = old.name) (closed : new.closed = old.closed)
    (connections : next.connections = server.connections) : next.Listed := by
  refine listed.kept connections fun other => ?_
  rw [openName_changed found conns, closed, name]
  split_ifs with same isClosed
  · rw [same, openName_of_found found, if_pos isClosed]
  · rw [same, openName_of_found found, if_neg isClosed]
  · rfl

/-- `n == 1` in `removeConnectionInLoop`. -/
theorem Listed.mem (listed : server.Listed) (found : server.conns[id]? = some connection)
    (unclosed : connection.closed = false) : connection.name ∈ server.connections := by
  have isName : server.openName id = some connection.name := by
    simp [openName_of_found found, unclosed]
  rw [Std.ExtTreeMap.mem_iff_isSome_getElem?, (listed _ _).mpr isName]
  rfl

theorem Listed.erased (listed : server.Listed) (found : server.conns[id]? = some old) (unclosed : old.closed = false)
    (conns : next.conns = server.conns.set id new) (closed : new.closed = true)
    (connections : next.connections = server.connections.erase old.name) : next.Listed := by
  have isName : server.openName id = some old.name := by
    simp [openName_of_found found, unclosed]
  have before := (listed old.name id).mpr isName
  intro name other
  rw [connections, Std.ExtTreeMap.getElem?_erase, openName_changed found conns, closed, if_pos rfl]
  by_cases same : other = id
  · subst same
    rw [if_pos rfl]
    refine iff_of_false ?_ (by simp)
    split_ifs with equal
    · simp
    · intro listedName
      have names := isName.symm.trans ((listed name other).mp listedName)
      cases names
      exact equal Std.ReflCmp.compare_self
  · rw [if_neg same]
    split_ifs with equal
    · cases Std.LawfulEqCmp.eq_of_compare equal
      refine iff_of_false (by simp) ?_
      intro otherName
      have twice := before.symm.trans ((listed old.name other).mpr otherName)
      cases twice
      exact same rfl
    · exact listed name other

theorem Listed.inserted (listed : server.Listed) (conns : next.conns = server.conns ++ [new])
    (unclosed : new.closed = false) (fresh : new.name ∉ server.connections)
    (connections : next.connections = server.connections.insert new.name server.conns.length) : next.Listed := by
  have absent : server.connections[new.name]? = none := by
    rw [Std.ExtTreeMap.mem_iff_isSome_getElem?] at fresh
    simpa using fresh
  have beyond : server.openName server.conns.length = none := by simp [openName]
  intro name other
  rw [connections, Std.ExtTreeMap.getElem?_insert, openName_appended conns unclosed]
  by_cases last : other = server.conns.length
  · subst last
    rw [if_pos rfl]
    split_ifs with equal
    · cases Std.LawfulEqCmp.eq_of_compare equal
      exact iff_of_true rfl rfl
    · refine iff_of_false ?_ ?_
      · intro listedName
        cases beyond.symm.trans ((listed name _).mp listedName)
      · intro same
        cases same
        exact equal Std.ReflCmp.compare_self
  · rw [if_neg last]
    split_ifs with equal
    · cases Std.LawfulEqCmp.eq_of_compare equal
      refine iff_of_false ?_ ?_
      · intro same
        cases same
        exact last rfl
      · intro otherName
        cases absent.symm.trans ((listed _ _).mpr otherName)
    · exact listed name other

/-- One connection was changed, and what is owed to it. -/
theorem Accounted.changed (next : TcpServer) (new : Connection) (books : server.Accounted discipline due)
    (found : server.conns[id]? = some old) (conns : next.conns = server.conns.set id new)
    (agenda : next.agenda = server.agenda) (callers : next.callers = server.callers) (listed : next.Listed)
    (account : new.Accounted (later.count (.connectDestroyed id)))
    (others : ∀ other, other ≠ id → later.count (.connectDestroyed other) = due.count (.connectDestroyed other))
    (unclosed : ∀ callback, (.connection id, callback) ∈ server.agenda → discipline.closing callback = true →
      new.closed = false)
    (orderly : next.loop.Orderly PendingFunctor.isConnectDestroyed)
    (queued : ∀ func ∈ later, func ∈ due ∨ func.isConnectDestroyed = true) : next.Accounted discipline later where
  listed := listed
  account other connection present := by
    rw [getElem?_changed found conns] at present
    split_ifs at present with same
    · cases present
      exact same ▸ account
    · rw [others other same]
      exact books.account other connection present
  unclosed other callback member closing := by
    rw [agenda] at member
    rw [isClosed, getElem?_changed found conns]
    split_ifs with same
    · subst same
      exact unclosed callback member closing
    · exact books.unclosed other callback member closing
  ordered := by
    rw [agenda]
    exact books.ordered
  orderly := orderly
  due func member := by
    cases queued func member with
    | inl before => exact books.due func before
    | inr owed => exact .inr owed
  callers := by
    rw [callers]
    exact books.callers

/-- What has to hold of a server for an effect to keep its accounts, in the call
of the functors `hand`. -/
def Fits (discipline : Discipline) (server : TcpServer) (hand : List PendingFunctor) : Effect → Prop
  | .keeps _ | .rests => ∀ func ∈ hand, func.isConnectDestroyed = false
  | .closes id => hand = [] ∧ server.loop.phase.isHandling = true ∧ server.isClosed id = false ∧
      ∀ callback, (.connection id, callback) ∈ server.agenda → discipline.closing callback = false
  | .destroys id => hand = [.connectDestroyed id]
  | .accepts => hand = [] ∧ server.connName ∉ server.connections

private theorem count_hand (others : ∀ func ∈ hand, func.isConnectDestroyed = false) :
    (hand ++ due).count (.connectDestroyed id) = due.count (.connectDestroyed id) := by
  have absent : PendingFunctor.connectDestroyed id ∉ hand := by
    intro member
    cases others _ member
  rw [List.count_append, List.count_eq_zero_of_not_mem absent, Nat.zero_add]

theorem Accounted.kept {made : List Call} (books : server.Accounted discipline (hand ++ server.loop.waiting))
    (others : ∀ func ∈ hand, func.isConnectDestroyed = false) (found : server.conns[id]? = some old)
    (kept : old.Kept new made) (epoller : Epoller Watched) :
    ({ server with epoller }.store id new).Accounted discipline server.loop.waiting := by
  let changed : TcpServer := { server with epoller }.store id new
  have conns : changed.conns = server.conns.set id new := rfl
  have account := books.account id old found
  rw [count_hand others] at account
  have listed : changed.Listed := books.listed.changed found conns kept.name kept.closed rfl
  refine books.changed changed new found conns rfl rfl listed (kept.accounted account)
    (fun other _ => (count_hand others).symm) ?_ books.orderly
    (fun func member => .inl (List.mem_append_right _ member))
  intro callback member closing
  rw [kept.closed, ← isClosed_of_found found]
  exact books.unclosed id callback member closing

/-- `handleClose` of an open connection, with the closing callbacks of its
channel behind it. -/
theorem Accounted.closes {conn : TcpConnection} {index : Int}
    (books : server.Accounted discipline server.loop.waiting) (found : server.conns[id]? = some old)
    (unclosed : old.closed = false) (calls : conn.calls = old.conn.calls) (state : conn.state = old.conn.state)
    (known : index ≠ -1) (handling : server.loop.phase.isHandling = true)
    (none : ∀ callback, (.connection id, callback) ∈ server.agenda → discipline.closing callback = false)
    (epoller : Epoller Watched) :
    ({ server with
      epoller
      connections := server.connections.erase old.name
      loop := server.loop.queueInLoop (.connectDestroyed id) }.store id
        { old with conn := closing conn index }).Accounted discipline
          (server.loop.queueInLoop (.connectDestroyed id)).waiting := by
  let new : Connection := { old with conn := closing conn index }
  let closed : TcpServer := { server with
    epoller
    connections := server.connections.erase old.name
    loop := server.loop.queueInLoop (.connectDestroyed id) }.store id new
  have conns : closed.conns = server.conns.set id new := rfl
  have isClosed : new.closed = true := Connection.closing_closed old conn index
  have queued := EventLoop.queueInLoop_queued server.loop (.connectDestroyed id)
  have listed : closed.Listed := books.listed.erased found unclosed conns isClosed rfl
  have orderly := queued.orderly books.orderly (.inl handling)
  refine books.changed closed new found conns rfl rfl listed ?_ ?_ ?_ orderly ?_
  · rw [queued.waiting, List.count_append, List.count_singleton_self]
    exact Connection.closing_accounted (books.account id old found) unclosed calls state known
  · intro other apart
    rw [queued.waiting, List.count_append, List.count_singleton, if_neg (by simpa using Ne.symm apart)]
    rfl
  · intro callback member closing
    cases (none callback member).symm.trans closing
  · intro func member
    rw [queued.waiting] at member
    cases List.mem_append.mp member with
    | inl before => exact .inl before
    | inr last =>
        cases List.mem_singleton.mp last
        exact .inr rfl

theorem Accounted.owed (books : server.Accounted discipline ([.connectDestroyed id] ++ server.loop.waiting))
    (found : server.conns[id]? = some old) :
    old.closed = true ∧ old.destroyed = false ∧ server.loop.waiting.count (.connectDestroyed id) = 0 := by
  have account := books.account id old found
  rw [List.count_append, List.count_singleton_self] at account
  have owed := account.owed (by omega)
  have due := account.due
  rw [if_pos owed] at due
  exact ⟨owed.1, owed.2, by omega⟩

theorem Accounted.destroys (books : server.Accounted discipline ([.connectDestroyed id] ++ server.loop.waiting))
    (found : server.conns[id]? = some old) (idle : server.agenda = []) (epoller : Epoller Watched) :
    ({ server with epoller }.store id { old with conn := destroyed old.conn }).Accounted discipline
      server.loop.waiting := by
  let new : Connection := { old with conn := destroyed old.conn }
  let changed : TcpServer := { server with epoller }.store id new
  have conns : changed.conns = server.conns.set id new := rfl
  have isClosed : new.closed = old.closed := by
    simp [new, Connection.closed, destroyed, TcpConnection.disableAll, TcpConnection.updateChannel, TcpConnection.call]
  have listed : changed.Listed := books.listed.changed found conns rfl isClosed rfl
  obtain ⟨-, -, settled⟩ := books.owed found
  refine books.changed changed new found conns rfl rfl listed ?_ ?_ ?_ books.orderly
    (fun func member => .inl (List.mem_append_right _ member))
  · rw [settled]
    exact Connection.destroyed_accounted (books.account id old found) (by simp)
  · intro other apart
    rw [List.count_append, List.count_singleton, if_neg (by simpa using Ne.symm apart), Nat.zero_add]
  · intro callback member
    rw [idle] at member
    cases member

theorem Accounted.accepts {conn : TcpConnection} (sound : server.Sound)
    (books : server.Accounted discipline server.loop.waiting) (fresh : server.connName ∉ server.connections)
    (state : conn.state = .connected) (calls : ∃ events, conn.calls = [.updateChannel events])
    (known : conn.channel.index ≠ -1) (epoller : Epoller Watched) :
    ({ server with
      nextConnId := increment server.nextConnId
      connections := server.connections.insert server.connName server.conns.length
      conns := server.conns ++ [⟨server.connName, conn, true⟩]
      epoller } : TcpServer).Accounted discipline server.loop.waiting := by
  obtain ⟨unclosed, account⟩ := Connection.accepted_accounted server.connName state calls known
  refine ⟨books.listed.inserted rfl unclosed fresh rfl, ?_, ?_, books.ordered, books.orderly, books.due,
    books.callers⟩
  · intro other connection present
    cases getElem?_appended rfl present with
    | inl last =>
        have absent : PendingFunctor.connectDestroyed server.conns.length ∉ server.loop.waiting := by
          intro member
          have living := sound.held _ (List.mem_append_left _ member) _ rfl
          simp [isAlive] at living
        rw [last.1, last.2, List.count_eq_zero_of_not_mem absent]
        exact account
    | inr earlier => exact books.account other connection earlier
  · intro other callback member closing
    obtain ⟨connection, present, -⟩ := sound.agenda other callback member
    have before := books.unclosed other callback member closing
    rw [isClosed_of_found present] at before
    rw [isClosed, getElem?_before rfl present]
    exact before

/-- A call into the server that fits keeps the accounts and fails no assertion. -/
theorem Does.accounted (hand : List PendingFunctor) (does : server.Does false effect outcome) (sound : server.Sound)
    (books : server.Accounted discipline (hand ++ server.loop.waiting)) (fits : server.Fits discipline hand effect) :
    ∃ next, outcome = .ok next ∧ next.Accounted discipline next.loop.waiting := by
  cases does with
  | kept id old new made epoller is found alive kept tracks quiet dead result =>
      subst is
      exact ⟨_, result, books.kept fits found kept epoller⟩
  | closes id old conn index epoller is found alive calls state buffered known tracks calm result =>
      subst is
      obtain ⟨nothing, handling, unclosed, none⟩ := fits
      subst nothing
      rw [isClosed_of_found found] at unclosed
      have account := books.account id old found
      have connected := account.state (account.living unclosed)
      rw [if_pos ⟨connected, books.listed.mem found unclosed⟩] at result
      exact ⟨_, result, books.closes found unclosed calls state known handling none epoller⟩
  | destroys id old epoller is found alive tracks idle calm result =>
      subst is
      have inHand : hand = [.connectDestroyed id] := fits
      subst inHand
      have living := (books.owed found).2.1
      rw [if_pos ((books.account id old found).state living)] at result
      exact ⟨_, result, books.destroys found idle epoller⟩
  | accepts conn epoller is known state calls buffered tracks calm result =>
      subst is
      obtain ⟨nothing, fresh⟩ := fits
      subst nothing
      exact ⟨_, result, books.accepts sound fresh state calls known epoller⟩
  | rests loop is same calm result =>
      subst is
      have others : ∀ func ∈ hand, func.isConnectDestroyed = false := fits
      refine ⟨_, result, ?_⟩
      have waiting : ({ server with loop } : TcpServer).loop.waiting = server.loop.waiting := same.waiting
      rw [waiting]
      refine ⟨books.listed, ?_, books.unclosed, books.ordered, same.orderly books.orderly,
        fun func member => books.due func (List.mem_append_right _ member), books.callers⟩
      intro other connection present
      have account := books.account other connection present
      rw [count_hand others] at account
      exact account

end TcpServer

end NutServer.Net
