import NutServer.Net.EventLoopThreadPool
import NutServer.Net.TcpConnection

/-!
# The server and its I/O threads

`nut::TcpServer` with its pool: which loop a new connection is given, which one
it is told to use, and in which thread `connectEstablished` runs. Every function
is called in the thread of some loop.
-/

set_option autoImplicit false

namespace NutServer.Net

open Library

structure PooledConnection where
  /-- What `getNextLoop()` returned for it. -/
  ioLoop : LoopPtr
  loop : LoopPtr
  /-- `ownerLoop()` of its channel. -/
  channelLoop : LoopPtr
  conn : TcpConnection
  /-- The thread in which `connectEstablished` has run. -/
  establishedIn : Option LoopPtr

inductive PooledFunctor where
  | listen
  | connectEstablished (id : Nat)
  deriving DecidableEq, Repr

structure PooledServer where
  loop : LoopPtr
  threadPool : EventLoopThreadPool
  started : Bool
  listenning : Bool
  /-- The connections in the order in which they were accepted. -/
  accepted : List PooledConnection
  /-- The functors that wait in the loops. -/
  pending : List (LoopPtr × PooledFunctor)

/-- The constructor hands the one loop to the connection and to its channel. -/
def PooledConnection.new (ioLoop loop : LoopPtr) (sockfd : Nat) : PooledConnection where
  ioLoop := ioLoop
  loop := loop
  channelLoop := loop
  conn := TcpConnection.new sockfd
  establishedIn := none

/-- `enableReading` goes through `updateChannel` of the channel's loop. -/
def PooledConnection.connectEstablished (connection : PooledConnection) (thread : LoopPtr) :
    Outcome PooledConnection := do
  connection.loop.assertInLoopThread thread
  let conn ← connection.conn.connectEstablished fun conn => conn
  connection.channelLoop.assertInLoopThread thread
  return { connection with conn, establishedIn := some thread }

namespace PooledServer

def new (loop : LoopPtr) : PooledServer where
  loop := loop
  threadPool := .new loop
  started := false
  listenning := false
  accepted := []
  pending := []

def apply (server : PooledServer) (thread : LoopPtr) : PooledFunctor → Outcome PooledServer
  | .listen => do
      server.loop.assertInLoopThread thread
      return { server with listenning := true }
  | .connectEstablished id =>
      match server.accepted[id]? with
      | none => throw .dangling
      | some connection => do
          let connection ← connection.connectEstablished thread
          return { server with accepted := server.accepted.set id connection }

def runInLoop (server : PooledServer) (loop thread : LoopPtr) (func : PooledFunctor) : Outcome PooledServer :=
  if loop = thread then server.apply thread func
  else return { server with pending := server.pending ++ [(loop, func)] }

def setThreadNums (server : PooledServer) (nums : Int) : PooledServer :=
  { server with threadPool := server.threadPool.setThreadNum nums }

def start (server : PooledServer) (thread : LoopPtr) : Outcome PooledServer :=
  let server := if server.started then server else { server with started := true }
  if server.listenning then return server else server.runInLoop server.loop thread .listen

def newConnection (server : PooledServer) (thread : LoopPtr) (sockfd : Nat) : Outcome PooledServer := do
  server.loop.assertInLoopThread thread
  let (ioLoop, threadPool) ← server.threadPool.getNextLoop thread
  let id := server.accepted.length
  let server := { server with
    threadPool
    accepted := server.accepted ++ [PooledConnection.new ioLoop server.loop sockfd] }
  server.runInLoop ioLoop thread (.connectEstablished id)

inductive Event where
  /-- The acceptor's callback, in the thread of the loop it was built with. -/
  | accept (sockfd : Nat)
  /-- The next functor that waits in the loop runs in the loop's thread. -/
  | runPending (loop : LoopPtr)
  deriving DecidableEq, Repr

def perform (server : PooledServer) : Event → Outcome PooledServer
  | .accept sockfd => server.newConnection server.loop sockfd
  | .runPending loop =>
      match server.pending.find? fun entry => entry.1 = loop with
      | none => return server
      | some (_, func) =>
          { server with pending := server.pending.eraseP fun entry => entry.1 = loop }.apply loop func

def Event.Enabled (server : PooledServer) : Event → Prop
  | .accept _ => server.listenning = true
  | .runPending loop => loop ∈ server.pending.map Prod.fst

instance decidableEnabled (server : PooledServer) : ∀ event : Event, Decidable (event.Enabled server)
  | .accept _ => inferInstanceAs (Decidable (server.listenning = true))
  | .runPending loop => inferInstanceAs (Decidable (loop ∈ server.pending.map Prod.fst))

def step (server : PooledServer) (event : Event) : Option PooledServer :=
  if event.Enabled server then (server.perform event).toOption else none

def isAccept : Event → Bool
  | .accept _ => true
  | .runPending _ => false

/-- Each connection belongs to the loop that its number selects, and nothing of
it runs in another thread. -/
def SpreadOver (threads : Nat) (server : PooledServer) : Prop :=
  ∀ (i : Nat) (connection : PooledConnection), server.accepted[i]? = some connection →
    connection.ioLoop = .io (i % threads) ∧
      connection.loop = connection.ioLoop ∧ connection.channelLoop = connection.ioLoop ∧
      ∀ thread ∈ connection.establishedIn, thread = connection.ioLoop

/-- A server whose pool has no threads yet, and who does all work itself. -/
structure Alone (server : PooledServer) : Prop where
  base : server.loop = .base
  poolBase : server.threadPool.baseLoop = .base
  unstarted : server.threadPool.loops = []
  listening : server.listenning = true
  settled : server.pending = []
  own : ∀ connection ∈ server.accepted, connection.ioLoop = .base ∧ connection.loop = .base ∧
    connection.channelLoop = .base ∧ connection.establishedIn = some .base

variable {server next : PooledServer} {sockfd : Nat}

private theorem start_alone (nums : Int) :
    ∃ server, ((new .base).setThreadNums nums).start .base = .ok server ∧ Alone server ∧ server.accepted = [] := by
  refine ⟨{ (new .base).setThreadNums nums with started := true, listenning := true }, ?_, ?_, rfl⟩
  · rfl
  · exact ⟨rfl, rfl, rfl, rfl, rfl, fun connection member => absurd member List.not_mem_nil⟩

/-- All of a new connection is in the base loop, whose thread runs
`connectEstablished` at once. -/
theorem newConnection_alone (alone : Alone server) (sockfd : Nat) :
    ∃ next, server.newConnection .base sockfd = .ok next ∧ Alone next ∧
      next.accepted.length = server.accepted.length + 1 := by
  have given := EventLoopThreadPool.getNextLoop_unstarted alone.unstarted alone.poolBase
  let fresh := PooledConnection.new .base .base sockfd
  obtain ⟨ready, established, same⟩ : ∃ ready, fresh.connectEstablished .base = .ok ready ∧
      ready.ioLoop = .base ∧ ready.loop = .base ∧ ready.channelLoop = .base ∧
      ready.establishedIn = some .base := ⟨_, rfl, rfl, rfl, rfl, rfl⟩
  let next : PooledServer := { server with loop := .base, accepted := server.accepted ++ [ready] }
  have last : (server.accepted ++ [fresh])[server.accepted.length]? = some fresh := by simp
  have stored : (server.accepted ++ [fresh]).set server.accepted.length ready = server.accepted ++ [ready] := by
    simp
  refine ⟨next, ?_, ⟨rfl, alone.poolBase, alone.unstarted, alone.listening, alone.settled, ?_⟩, ?_⟩
  · simp only [newConnection, alone.base, given, LoopPtr.assertInLoopThread, assert_of, Outcome.ok_bind,
      runInLoop, if_true, apply]
    rw [last]
    rw [Outcome.bind_pure_eq_ok_iff]
    exact ⟨ready, established, congrArg (fun accepted => { next with accepted }) stored⟩
  · intro connection member
    rcases List.mem_append.mp member with before | added
    · exact alone.own connection before
    · rw [List.mem_singleton.mp added]
      exact same
  · simp [next]

private theorem step_alone {event : Event} (alone : Alone server) (stepped : step server event = some next) :
    Alone next ∧ isAccept event = true ∧ next.accepted.length = server.accepted.length + 1 := by
  obtain ⟨enabled, performed⟩ := Outcome.ite_toOption_eq_some_iff.mp stepped
  cases event with
  | accept sockfd =>
      obtain ⟨other, made, otherAlone, longer⟩ := newConnection_alone alone sockfd
      rw [perform, alone.base] at performed
      cases made.symm.trans performed
      exact ⟨otherAlone, rfl, longer⟩
  | runPending loop =>
      have nothing : loop ∉ server.pending.map Prod.fst := by simp [alone.settled]
      exact absurd enabled nothing

theorem run_alone {events : List Event} {final : PooledServer} (alone : Alone server)
    (ran : run step server events = some final) :
    Alone final ∧ (∀ event ∈ events, isAccept event = true) ∧
      final.accepted.length = server.accepted.length + events.length := by
  refine run_history (fun past state => Alone state ∧ (∀ event ∈ past, isAccept event = true) ∧
    state.accepted.length = server.accepted.length + past.length) ⟨alone, nofun, rfl⟩ ?_ ran
  intro past state event next kept stepped
  obtain ⟨stateAlone, accepts, counted⟩ := kept
  obtain ⟨nextAlone, accept, longer⟩ := step_alone stateAlone stepped
  refine ⟨nextAlone, ?_, ?_⟩
  · simp only [List.mem_append, List.mem_singleton]
    rintro event (before | rfl)
    · exact accepts event before
    · exact accept
  · rw [longer, counted, List.length_append, List.length_singleton, Nat.add_assoc]

private theorem accepts_alone (alone : Alone server) (sockfds : List Nat) :
    ∃ final, run step server (sockfds.map .accept) = some final ∧
      final.accepted.length = server.accepted.length + sockfds.length := by
  have everywhere : Along step (fun _ event => isAccept event = true) server (sockfds.map .accept) := by
    induction sockfds generalizing server with
    | nil => trivial
    | cons sockfd rest ih => exact ⟨rfl, fun next stepped => ih (step_alone alone stepped).1⟩
  have progress : ∀ (_ : List Event) (state : PooledServer) (event : Event), Alone state → isAccept event = true →
      ∃ next, step state event = some next ∧ Alone next := by
    intro _ state event stateAlone accept
    cases event with
    | runPending loop => cases accept
    | accept sockfd =>
        obtain ⟨next, made, nextAlone, _⟩ := newConnection_alone stateAlone sockfd
        rw [← stateAlone.base] at made
        have stepped : step state (.accept sockfd) = some next :=
          Outcome.ite_toOption_eq_some_iff.mpr ⟨stateAlone.listening, made⟩
        exact ⟨next, stepped, nextAlone⟩
  obtain ⟨final, ran, -⟩ := run_total (fun _ state => Alone state) alone progress everywhere
  exact ⟨final, ran, by rw [(run_alone alone ran).2.2, List.length_map]⟩

private theorem not_spreadOver_of_alone (alone : Alone server) (some : server.accepted ≠ []) (threads : Nat) :
    ¬ SpreadOver threads server := by
  intro spread
  obtain ⟨first, rest, accepted⟩ := List.exists_cons_of_ne_nil some
  have selected := (spread 0 first (by simp [accepted])).1
  rw [(alone.own first (by simp [accepted])).1] at selected
  cases selected

/-- Whatever number of threads is set, connections are accepted, and as soon as
there is one they are not spread over the I/O loops. -/
theorem spreadOver_iff (nums : Int) :
    ∃ server, ((new .base).setThreadNums nums).start .base = .ok server ∧
      (∀ sockfds : List Nat, ∃ final, run step server (sockfds.map .accept) = some final ∧
        final.accepted.length = sockfds.length) ∧
      ∀ (events : List Event) (final : PooledServer), run step server events = some final →
        (SpreadOver nums.toNat final ↔ ∀ event ∈ events, isAccept event = false) := by
  obtain ⟨server, started, alone, none⟩ := start_alone nums
  refine ⟨server, started, fun sockfds => ?_, fun events final ran => ?_⟩
  · obtain ⟨final, ran, counted⟩ := accepts_alone alone sockfds
    exact ⟨final, ran, by rw [counted, none, List.length_nil, Nat.zero_add]⟩
  · obtain ⟨finalAlone, accepts, counted⟩ := run_alone alone ran
    rw [none, List.length_nil, Nat.zero_add] at counted
    cases events with
    | nil =>
        have empty := List.length_eq_zero_iff.mp counted
        exact iff_of_true (fun i connection found => by simp [empty] at found) nofun
    | cons event rest =>
        have some : final.accepted ≠ [] := List.ne_nil_of_length_pos (by rw [counted]; exact Nat.succ_pos _)
        refine iff_of_false (not_spreadOver_of_alone finalAlone some _) fun silent => ?_
        have accept := accepts event List.mem_cons_self
        rw [silent event List.mem_cons_self] at accept
        cases accept

/-- With two threads the first connection is left to the base loop. -/
theorem first_connection_unspread :
    ∃ server final, ((new .base).setThreadNums 2).start .base = .ok server ∧
      run step server [.accept 7] = some final ∧ ¬ SpreadOver 2 final := by
  obtain ⟨server, started, alone, none⟩ := start_alone 2
  obtain ⟨final, ran, counted⟩ := accepts_alone alone [7]
  have some : final.accepted ≠ [] := by
    apply List.ne_nil_of_length_pos
    rw [counted]
    exact Nat.succ_pos _
  exact ⟨server, final, started, ran, not_spreadOver_of_alone (run_alone alone ran).1 some 2⟩

/-- A started pool alone would not help: the connection is still told to use the
base loop, so `connectEstablished` fails its assertion in the I/O thread. -/
theorem newConnection_serving {threads given : Nat} (base : server.loop = .base)
    (serving : server.threadPool.Serving threads given) (some : 0 < threads) (sockfd : Nat) :
    ∃ next, server.newConnection .base sockfd = .ok next ∧
      next.threadPool.Serving threads (given + 1) ∧
      next.pending = server.pending ++
        [(.io (given % threads), .connectEstablished server.accepted.length)] ∧
      next.apply (.io (given % threads)) (.connectEstablished server.accepted.length) = .error .assertion := by
  obtain ⟨pool, got, poolServing⟩ := EventLoopThreadPool.getNextLoop_serving serving some
  let fresh := PooledConnection.new (.io (given % threads)) .base sockfd
  let next : PooledServer := { server with
    loop := .base
    threadPool := pool
    accepted := server.accepted ++ [fresh]
    pending := server.pending ++ [(.io (given % threads), .connectEstablished server.accepted.length)] }
  have last : next.accepted[server.accepted.length]? = Option.some fresh := by simp [next]
  refine ⟨next, ?_, poolServing, rfl, ?_⟩
  · simp only [newConnection, base, got, LoopPtr.assertInLoopThread, assert_of, Outcome.ok_bind, runInLoop]
    rw [if_neg (by simp)]
    rfl
  · rw [apply, last]
    rfl

end PooledServer

end NutServer.Net
