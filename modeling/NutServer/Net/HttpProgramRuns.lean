import NutServer.Library.Progress
import NutServer.Net.HttpProgramProperties
import NutServer.Net.TcpServerAccounting

/-!
# How far the program gets

On its only loop nothing stops a program that ignores SIGPIPE but the parser,
which does not come back from some messages.
-/

set_option autoImplicit false

namespace NutServer.Net

open Library
open TcpConnection (Operation)

namespace HttpProgram

/-- The parser comes back from the message that the event delivers, if it delivers one. -/
def parses (nullFind : NullFind) (program : HttpProgram) (event : TcpServer.Event) : Bool :=
  match program.tcpServer.operation event with
  | some (id, .handleRead (.received (first :: rest))) => (program.tcpServer.conns[id]?).all fun connection =>
      (HttpRequest.parseText nullFind (program.requests id)
        (connection.conn.inputBuffer.readable ++ first :: rest)).toOption.isSome
  | _ => true

/-- The kernel and the other threads keep to the only loop. -/
def Guarded (program : HttpProgram) (event : Event) : Prop :=
  event.1.Enabled program.tcpServer ∧ event.1.OneLoop program.tcpServer ∧ isOutside event.1 = false

instance decidableGuarded (program : HttpProgram) (event : Event) : Decidable (program.Guarded event) :=
  inferInstanceAs (Decidable (event.1.Enabled program.tcpServer ∧ event.1.OneLoop program.tcpServer ∧
    isOutside event.1 = false))

structure InOrder (server : TcpServer) : Prop where
  order : server.InOrder TcpServer.loopOnly
  numbered : server.Numbered

variable {server middle next : TcpServer} {id : Nat} {text : Bytes} {closing : Bool} {result : WriteResult}

theorem InOrder.step {event : TcpServer.Event} (inOrder : InOrder server) (enabled : event.Enabled server)
    (oneLoop : event.OneLoop server) : ∃ next, server.step event = some next ∧ InOrder next := by
  have regular := oneLoop.regular enabled inOrder.order.accounts inOrder.numbered
  obtain ⟨next, stepped, order⟩ := TcpServer.step_total inOrder.order enabled regular
  have performed := (TcpServer.step_eq_some_iff.mp stepped).2
  exact ⟨next, stepped, order, TcpServer.perform_numbered inOrder.order inOrder.numbered enabled oneLoop performed⟩

/-- A member function that goes on with its connection leaves the loop where it is. -/
theorem keeps_of_does {revived : Bool} {outcome : Outcome TcpServer} (does : server.Does revived (.keeps id) outcome)
    (performed : outcome = .ok next) : next.loop = server.loop ∧ next.isAlive id = true := by
  cases does with
  | kept other old new made epoller is found alive kept tracks quiet dead result =>
      cases is
      cases result.symm.trans performed
      refine ⟨rfl, ?_⟩
      rw [TcpServer.isAlive, TcpServer.getElem?_changed found rfl, if_pos rfl, Option.any_some, kept.alive]
  | closes other old conn index epoller is | destroys other old epoller is | accepts conn epoller is
  | rests loop is => cases is

/-- `onMessage` is in the middle of a handler, and can call its connection. -/
theorem answering_total (inOrder : InOrder server) (handlers : server.loop.phase = .handlers)
    (living : server.isAlive id = true) :
    ∃ final, run TcpServer.step server (answering id text closing result) = some final ∧ InOrder final := by
  have queues : server.loop.phase.queues = true := by
    rw [handlers]
    rfl
  have enabled : (TcpServer.Event.request (.send id text) result).Enabled server :=
    ⟨queues, fun other same => Option.some.inj same ▸ living⟩
  obtain ⟨sent, stepped, sentOrder⟩ := inOrder.step enabled trivial
  obtain ⟨loop, stillLiving⟩ := keeps_of_does (TcpServer.send_does inOrder.order.sound living text)
    (TcpServer.step_eq_some_iff.mp stepped).2
  rw [answering, List.map_cons, run_cons, stepped, Option.bind_some]
  cases closing with
  | false => exact ⟨sent, rfl, sentOrder⟩
  | true =>
      have enabledLast : (TcpServer.Event.request (.shutdown id) result).Enabled sent :=
        ⟨loop ▸ queues, fun other same => Option.some.inj same ▸ stillLiving⟩
      obtain ⟨final, steppedLast, finalOrder⟩ := sentOrder.step enabledLast trivial
      refine ⟨final, ?_, finalOrder⟩
      change run TcpServer.step sent [.request (.shutdown id) result] = some final
      rw [run_cons, steppedLast]
      rfl

/-- The handler that reads a message is still running behind it. -/
theorem reading {event : TcpServer.Event} {bytes : Bytes} (inOrder : InOrder server) (nonempty : bytes ≠ [])
    (called : server.operation event = some (id, .handleRead (.received bytes)))
    (stepped : server.step event = some middle) :
    middle.loop.phase = .handlers ∧ middle.isAlive id = true ∧
      ∃ old new, server.conns[id]? = some old ∧ middle.conns[id]? = some new ∧ new.conn.inputBuffer.Valid ∧
        new.conn.inputBuffer.readable = old.conn.inputBuffer.readable ++ bytes := by
  obtain ⟨enabled, performed⟩ := TcpServer.step_eq_some_iff.mp stepped
  cases event with
  | loop | poll | push | release => cases called
  | call result =>
      obtain ⟨func, -, called⟩ := Option.bind_eq_some_iff.mp called
      cases func <;> cases called
  | request op result => cases op <;> cases called
  | foreign thread op => cases op <;> cases called
  | handle reports =>
      have moves := TcpServer.perform_moves performed
      rw [called] at moves
      cases agenda : server.agenda with
      | nil => exact absurd agenda enabled.2.1
      | cons entry rest =>
          obtain ⟨watched, callback⟩ := entry
          obtain ⟨-, does⟩ := TcpServer.handle_does inOrder.order.sound enabled agenda
          have effect : TcpServer.callbackEffect reports watched callback = .keeps id := by
            rw [TcpServer.operation, agenda] at called
            cases watched with
            | acceptor | wakeup | timer => cases called
            | connection other =>
                cases callback with
                | close | error | write => cases called
                | read =>
                    simp only [List.head?_cons, Option.bind_some, TcpServer.callbackOperation, Option.some.injEq,
                      Prod.mk.injEq, Operation.handleRead.injEq] at called
                    obtain ⟨same, isMessage⟩ := called
                    rw [TcpServer.callbackEffect, isMessage, if_neg (by simpa using nonempty), same]
          simp only [TcpServer.perform, agenda] at performed
          rw [effect] at does
          obtain ⟨loop, living⟩ := keeps_of_does does performed
          refine ⟨(congrArg EventLoop.phase loop).trans enabled.1, living, ?_⟩
          cases moves with
          | @operates _ _ old conn index found operated conns =>
              have honest := TcpServer.honest_of_enabled enabled called found
              obtain ⟨inputBuffer, same, valid, filled⟩ := handleRead_message
                (inOrder.order.sound.sane id old found).buffered nonempty honest operated
              subst same
              refine ⟨old, { old with conn := ({ old.conn with inputBuffer } : TcpConnection).setIndex index }, found,
                ?_, valid, filled⟩
              rw [TcpServer.getElem?_changed found conns, if_pos rfl]

section Steps

variable {nullFind : NullFind} {program : HttpProgram} {event : Event}

private theorem parses_of_called {bytes : Bytes} {old : Connection} (nonempty : bytes ≠ [])
    (called : program.tcpServer.operation event.1 = some (id, .handleRead (.received bytes)))
    (found : program.tcpServer.conns[id]? = some old) :
    parses nullFind program event.1 = true ↔ ∃ outcome,
      HttpRequest.parseText nullFind (program.requests id) (old.conn.inputBuffer.readable ++ bytes) = .ok outcome := by
  cases bytes with
  | nil => exact absurd rfl nonempty
  | cons first rest =>
      simp only [parses, called, found, Option.all_some, Option.isSome_iff_exists, Outcome.toOption_eq_some_iff]

private theorem parses_of_undelivered (undelivered : delivered (program.tcpServer.operation event.1) = none) :
    parses nullFind program event.1 = true := by
  unfold parses
  unfold delivered at undelivered
  split
  · rename_i called
    rw [called] at undelivered
    cases undelivered
  · rfl

/-- A step of the only loop succeeds unless the parser does not come back. -/
theorem step_iff (inOrder : InOrder program.tcpServer) (guarded : program.Guarded event) :
    (∃ next, step nullFind program event = some next) ↔ parses nullFind program event.1 = true := by
  obtain ⟨enabled, oneLoop, inside⟩ := guarded
  obtain ⟨middle, stepped, middleOrder⟩ := inOrder.step enabled oneLoop
  have entered : step nullFind program event =
      (delivered (program.tcpServer.operation event.1)).elim (some { program with tcpServer := middle }) fun id =>
        callMessage nullFind { program with tcpServer := middle } id event.2 := by
    rw [step, inside, stepped]
    rfl
  cases isDelivered : delivered (program.tcpServer.operation event.1) with
  | none =>
      rw [isDelivered] at entered
      exact iff_of_true ⟨_, entered⟩ (parses_of_undelivered isDelivered)
  | some id =>
      obtain ⟨bytes, nonempty, called⟩ := delivered_eq_some_iff.mp isDelivered
      obtain ⟨handlers, living, old, new, found, present, valid, filled⟩ := reading inOrder nonempty called stepped
      have asked : (program.requests id).parseRequest nullFind new.conn.inputBuffer =
          HttpRequest.parseText nullFind (program.requests id) (old.conn.inputBuffer.readable ++ bytes) := by
        rw [HttpRequest.parseRequest_eq valid, filled]
      rw [entered, isDelivered, Option.elim_some, parses_of_called nonempty called found, ← asked]
      constructor
      · rintro ⟨next, answered⟩
        obtain ⟨connection, isConnection, answered⟩ := Option.bind_eq_some_iff.mp answered
        cases present.symm.trans isConnection
        obtain ⟨outcome, made, -⟩ := Option.bind_eq_some_iff.mp answered
        obtain ⟨parsed, parsing, -⟩ := Outcome.bind_eq_ok_iff.mp (Outcome.toOption_eq_some_iff.mp made)
        exact ⟨parsed, parsing⟩
      · rintro ⟨⟨after, complete⟩, parsed⟩
        obtain ⟨closing, made⟩ := onMessage_spec id parsed
        obtain ⟨final, ran, -⟩ := answering_total middleOrder handlers living
        refine ⟨{ tcpServer := final, requests := Function.update program.requests id after }, ?_⟩
        refine Option.bind_eq_some_iff.mpr ⟨new, present, ?_⟩
        refine Option.bind_eq_some_iff.mpr ⟨_, Outcome.toOption_eq_some_iff.mpr made, ?_⟩
        exact Option.bind_eq_some_iff.mpr ⟨final, ran, rfl⟩

private theorem step_inOrder {next : HttpProgram} (inOrder : InOrder program.tcpServer) (guarded : program.Guarded event)
    (stepped : step nullFind program event = some next) : InOrder next.tcpServer := by
  obtain ⟨-, steps⟩ := steps_of_step stepped
  obtain ⟨middle, first, middleOrder⟩ := inOrder.step guarded.1 guarded.2.1
  cases steps with
  | silent same undelivered =>
      cases first.symm.trans same
      exact middleOrder
  | answers same isDelivered found parsed ran =>
      cases first.symm.trans same
      obtain ⟨bytes, nonempty, called⟩ := delivered_eq_some_iff.mp isDelivered
      obtain ⟨handlers, living, -⟩ := reading inOrder nonempty called first
      obtain ⟨final, ranAll, finalOrder⟩ := answering_total middleOrder handlers living
      cases ran.symm.trans ranAll
      exact finalOrder

end Steps

/-- In every run of the program on its only loop, where SIGPIPE is ignored: no
assertion fails and no pointer dangles, so that the program gets as far as its
parser, and throughout
`connections_`, `ChannelMap_` and the epoll set agree with the life of each connection. -/
theorem runs_iff_parses (nullFind : NullFind) (name : String) (residents : Residents) (runing : Bool)
    (events : List Event) {program : HttpProgram} (started : start name residents runing = .ok program)
    (along : Along (step nullFind) Guarded program events) :
    ((∃ final, run (step nullFind) program events = some final) ↔
      Along (step nullFind) (fun program event => parses nullFind program event.1 = true) program events) ∧
    Throughout (step nullFind) (fun program => program.tcpServer.Balanced) program events := by
  have begins : InOrder program.tcpServer := by
    obtain ⟨server, isServer, same⟩ := Outcome.bind_pure_eq_ok_iff.mp started
    subst same
    refine ⟨TcpServer.start_inOrder TcpServer.loopOnly isServer, ?_⟩
    obtain ⟨other, isOther, -, first, -, conns, -⟩ := TcpServer.start_spec name residents runing
    cases isServer.symm.trans isOther
    refine ⟨by rw [first, conns]; rfl, fun id connection found => ?_⟩
    simp [conns] at found
  have keeps : ∀ (program : HttpProgram) (event : Event) (next : HttpProgram), InOrder program.tcpServer →
      program.Guarded event → step nullFind program event = some next → InOrder next.tcpServer :=
    fun _ _ _ => step_inOrder
  exact ⟨run_isSome_iff_along (fun program => InOrder program.tcpServer) Guarded _ (fun _ _ => step_iff) keeps begins
      along,
    throughout_of_along (fun program => InOrder program.tcpServer) _ begins
      (fun _ inOrder => inOrder.order.balanced inOrder.numbered) keeps along⟩

/-- A client that names a method that no request has. -/
def unknownMethod : List Event :=
  [.loop .enterLoop, .loop .testQuit, .poll [(5, 1)], .handle ⟨.failed, .failed, some 7⟩, .loop .handlersDone,
    .loop .swap, .call .failed, .loop .testQuit, .poll [(7, 1)],
    .handle ⟨.received (ascii "PUTS / HTTP/1.1\r\n\r\n"), .failed, none⟩].map fun event => (event, .failed)

theorem runs_iff_parses_two : ∃ program, start "nut" ⟨3, 4, 5, by decide⟩ false = .ok program ∧
    (∃ final, run (step .returnsLast) program twoClients = some final) ∧
    ¬ ∃ final, run (step .returnsLast) program unknownMethod = some final := by
  have reached : (start "nut" ⟨3, 4, 5, by decide⟩ false).toOption.any (fun program =>
      (Along (step .returnsLast) Guarded program twoClients ∧ Along (step .returnsLast) Guarded program unknownMethod) ∧
        Along (step .returnsLast) (fun program event => parses .returnsLast program event.1 = true) program twoClients ∧
        ¬ Along (step .returnsLast) (fun program event => parses .returnsLast program event.1 = true) program
          unknownMethod) = true := by
    decide +kernel
  obtain ⟨program, isProgram, holds⟩ := (Option.any_eq_true _ _).mp reached
  obtain ⟨⟨along, alongUnknown⟩, parsing, stuck⟩ := of_decide_eq_true holds
  have started := Outcome.toOption_eq_some_iff.mp isProgram
  refine ⟨program, started, ?_, ?_⟩
  · exact (runs_iff_parses .returnsLast "nut" ⟨3, 4, 5, by decide⟩ false twoClients started along).1.mpr parsing
  · have iff := runs_iff_parses .returnsLast "nut" ⟨3, 4, 5, by decide⟩ false unknownMethod started alongUnknown
    exact mt iff.1.mp stuck

end HttpProgram

end NutServer.Net
