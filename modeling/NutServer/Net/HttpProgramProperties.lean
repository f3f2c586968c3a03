import NutServer.Net.HttpProgram
import NutServer.Net.TcpServerFaults

/-!
# Every connection is served

Beside each connection of the program runs a plain server without buffers and
writes, which hears what happens to that connection only.
-/

set_option autoImplicit false

namespace NutServer.Net

open Library
open TcpConnection (Operation operateStep)

namespace HttpProgram

/-- A connection and its request, beside a plain server. -/
def Serves (conn : TcpConnection) (request : HttpRequest) (session : HttpSession) : Prop :=
  HttpServer.Shows (conn.setReq request) session

section Operations

variable {conn next : TcpConnection} {request : HttpRequest} {session : HttpSession} {nullFind : NullFind}
  {operation : Operation}

private theorem opened_serves (sockfd : Nat) : Serves (TcpConnection.opened sockfd) .new .new where
  valid := ⟨Buffer.fresh_valid, Buffer.fresh_valid⟩
  up := rfl
  request := rfl
  received := Buffer.fresh_readable
  answers := TcpConnection.opened_stream sockfd

theorem Serves.buffered (serves : Serves conn request session) : conn.Buffered :=
  ⟨serves.valid.input, serves.valid.output⟩

theorem Serves.setIndex {index : Int} (serves : Serves conn request session) :
    Serves (conn.setIndex index) request session :=
  ⟨⟨serves.valid.input, serves.valid.output⟩, serves.up, serves.request, serves.received, serves.answers⟩

/-- An operation that writes nothing new and reads nothing. -/
theorem Serves.same (serves : Serves conn request session) (operated : conn.operate operation = .ok next)
    (honest : conn.Honest operation) (silent : conn.taken operation = []) (same : conn.SameReader next) :
    Serves next request session := by
  obtain ⟨buffered, shown⟩ := TcpConnection.operate_stream serves.buffered honest operated
  rw [silent, List.append_nil] at shown
  exact ⟨⟨buffered.input, buffered.output⟩, same.state.trans serves.up, serves.request,
    (congrArg Buffer.readable same.inputBuffer).trans serves.received, shown.trans serves.answers⟩

private theorem handleClose_reader (closed : conn.handleClose = .ok next) :
    conn.state = .connected ∧ conn.SameReader next := by
  obtain ⟨-, -, same, -⟩ := TcpConnection.handleClose_effect closed
  obtain ⟨_, isConnected, -⟩ := Outcome.bind_eq_ok_iff.mp closed
  exact ⟨assert_ok_iff.mp isConnected, same⟩

private theorem handleWrite_reader (buffered : conn.Buffered) {result : WriteResult}
    (honest : conn.Honest (.handleWrite result)) (written : conn.handleWrite result = .ok next) : conn.SameReader next := by
  cases writing : conn.channel.isWriting with
  | true =>
      obtain ⟨other, made, same, wrote, -⟩ := TcpConnection.handleWrite_spec buffered.output (honest writing)
      cases written.symm.trans same
      exact wrote.same
  | false =>
      cases written.symm.trans (TcpConnection.handleWrite_of_quiet writing)
      exact ⟨rfl, rfl, rfl⟩

/-- The plain server hears the end of the stream. -/
theorem Serves.closed (serves : Serves conn request session) (connected : conn.state = .connected)
    (answer : WriteResult) : session.step nullFind (.readable (.received []) answer) = some session := by
  have isUp : session.connected = true := serves.connected_iff.mp connected
  simp only [HttpSession.step, HttpSession.handle, if_true, assert_of isUp]
  rfl

/-- What a connection does other than to read a message, and what the plain
server makes of it. -/
theorem operate_serves (serves : Serves conn request session) (honest : conn.Honest operation)
    (operated : conn.operate operation = .ok next) {id : Nat} (undelivered : delivered (some (id, operation)) = none)
    {answer : WriteResult} {event : HttpServer.Event} (isHeard : hears answer operation = some event) :
    ∃ later, session.step nullFind event = some later ∧ Serves next request later := by
  cases operation with
  | handleRead result =>
      cases isHeard
      cases result with
      | failed =>
          have same : conn.SameReader next := by
            cases operated
            exact ⟨rfl, rfl, rfl⟩
          exact ⟨session, rfl, serves.same operated honest rfl same⟩
      | received bytes =>
          cases bytes with
          | cons first rest => cases undelivered
          | nil =>
              obtain ⟨inputBuffer, read, valid, filled⟩ := Buffer.readFd_spec serves.buffered.input honest
              rw [List.append_nil] at filled
              have received : Serves { conn with inputBuffer } request session :=
                ⟨⟨valid, serves.valid.output⟩, serves.up, serves.request, filled.trans serves.received, serves.answers⟩
              have closes : ({ conn with inputBuffer } : TcpConnection).handleClose = .ok next := by
                rw [← operated]
                simp only [TcpConnection.operate, TcpConnection.handleRead, read, Outcome.ok_bind]
                rfl
              have called : ({ conn with inputBuffer } : TcpConnection).operate .handleClose = .ok next := closes
              obtain ⟨connected, same⟩ := handleClose_reader closes
              exact ⟨session, received.closed connected answer, received.same called trivial rfl same⟩
  | handleWrite result =>
      cases isHeard
      exact ⟨session, rfl, serves.same operated honest rfl (handleWrite_reader serves.buffered honest operated)⟩
  | handleClose =>
      cases isHeard
      obtain ⟨connected, same⟩ := handleClose_reader operated
      exact ⟨session, serves.closed connected answer, serves.same operated honest rfl same⟩
  | handleError =>
      cases isHeard
      have same : conn.SameReader next := by
        cases operated
        exact ⟨rfl, rfl, rfl⟩
      exact ⟨session, rfl, serves.same operated honest rfl same⟩
  | connectDestroyed =>
      cases isHeard
      obtain ⟨buffered, shown⟩ := TcpConnection.operate_stream serves.buffered honest operated
      obtain ⟨_, isConnected, same⟩ := Outcome.bind_eq_ok_iff.mp operated
      have isUp : session.connected = true := serves.connected_iff.mp (assert_ok_iff.mp isConnected)
      refine ⟨{ session with connected := false }, ?_, ⟨⟨buffered.input, buffered.output⟩, ?_, serves.request, ?_, ?_⟩⟩
      · simp only [HttpSession.step, HttpSession.handle, assert_of isUp]
        rfl
      · cases same
        rfl
      · cases same
        exact serves.received
      · rw [← serves.answers]
        exact shown.trans (List.append_nil _)
  | send | sendInLoop | shutdown | shutdownInLoop | closeConnection | closeConnectionInLoop => cases isHeard

/-- An answer of the plain server, in the hands of the connection. -/
theorem Serves.sent (serves : Serves conn request session) {text : Bytes} {result : WriteResult}
    (sent : conn.operate (.send text result) = .ok next) :
    Serves next request
      { session with answers := if session.connected then session.answers ++ [text] else session.answers } := by
  have honest : conn.Honest (.send text result) := trivial
  obtain ⟨buffered, shown⟩ := TcpConnection.operate_stream serves.buffered honest sent
  have same : conn.SameReader next := by
    obtain ⟨other, made, isOther, wrote, -⟩ := HttpServer.send_spec serves.buffered.output text result
    cases sent.symm.trans isOther
    exact ⟨wrote.same.state, wrote.same.request, wrote.same.inputBuffer⟩
  refine ⟨⟨buffered.input, buffered.output⟩, same.state.trans serves.up, serves.request,
    (congrArg Buffer.readable same.inputBuffer).trans serves.received, shown.trans ?_⟩
  have before : conn.stream = session.answers.flatten := serves.answers
  have isUp : conn.state = .connected ↔ session.connected = true := serves.connected_iff
  rw [before, TcpConnection.taken]
  by_cases connected : session.connected = true
  · rw [if_pos (isUp.mpr connected), if_pos connected, List.flatten_append, List.flatten_singleton]
  · rw [if_neg (mt isUp.mp connected), if_neg connected, List.append_nil]

private theorem Serves.shutDown (serves : Serves conn request session) : Serves conn.shutdown request session := by
  have called : conn.operate .shutdown = .ok conn.shutdown := rfl
  refine serves.same called trivial rfl ?_
  unfold TcpConnection.shutdown TcpConnection.shutdownInLoop
  split_ifs <;> exact ⟨rfl, rfl, rfl⟩

/-- The message is behind what the connection had received. -/
theorem handleRead_message (buffered : conn.Buffered) {bytes : Bytes} (nonempty : bytes ≠ [])
    (honest : conn.Honest (.handleRead (.received bytes)))
    (operated : conn.operate (.handleRead (.received bytes)) = .ok next) :
    ∃ inputBuffer : Buffer, next = { conn with inputBuffer } ∧ inputBuffer.Valid ∧
      inputBuffer.readable = conn.inputBuffer.readable ++ bytes := by
  obtain ⟨inputBuffer, read, valid, filled⟩ := Buffer.readFd_spec buffered.input honest
  have positive : (0 : Int) < bytes.length := by
    have long := List.length_pos_iff.mpr nonempty
    omega
  simp only [TcpConnection.operate, TcpConnection.handleRead, read, Outcome.ok_bind, if_pos positive] at operated
  cases operated
  exact ⟨inputBuffer, rfl, valid, filled⟩

theorem Serves.reads (serves : Serves conn request session) {bytes : Bytes} (nonempty : bytes ≠ [])
    (honest : conn.Honest (.handleRead (.received bytes)))
    (operated : conn.operate (.handleRead (.received bytes)) = .ok next) :
    next.inputBuffer.Valid ∧ next.inputBuffer.readable = session.received ++ bytes ∧
      ∀ after, Serves next after { session with request := after, received := session.received ++ bytes } := by
  obtain ⟨inputBuffer, same, valid, filled⟩ := handleRead_message serves.buffered nonempty honest operated
  have before : conn.inputBuffer.readable = session.received := serves.received
  rw [before] at filled
  subst same
  exact ⟨valid, filled, fun after => ⟨⟨valid, serves.valid.output⟩, serves.up, rfl, filled, serves.answers⟩⟩

/-- `onMessage` gives one answer, the plain server's. -/
theorem onMessage_spec (id : Nat) {after : HttpRequest} {complete : Bool} {buf : Buffer}
    (parsed : request.parseRequest nullFind buf = .ok (after, complete)) :
    ∃ closing : Bool, onMessage nullFind id request buf =
      .ok (after, .send id (HttpSession.answerTo after complete) :: if closing then [.shutdown id] else []) := by
  have full := HttpServer.parseRequest_complete parsed
  cases complete with
  | false =>
      refine ⟨true, ?_⟩
      simp only [onMessage, parsed, Outcome.ok_bind, ← full]
      rfl
  | true =>
      have rendered := (HttpServer.render_spec after).1
      refine ⟨!(HttpResponse.new.setResponse after).closeConnection, ?_⟩
      simp only [onMessage, parsed, Outcome.ok_bind, ← full, onRequest, rendered]
      rfl

/-- A message, and the calls that `onMessage` makes behind it. -/
theorem Serves.answered {final : TcpConnection} (serves : Serves conn request session) {bytes : Bytes}
    (reads : next.inputBuffer.Valid ∧ next.inputBuffer.readable = session.received ++ bytes ∧
      ∀ after, Serves next after { session with request := after, received := session.received ++ bytes })
    {after : HttpRequest} {complete closing : Bool} (result : WriteResult)
    (parsed : request.parseRequest nullFind next.inputBuffer = .ok (after, complete))
    (ran : run operateStep next
      (.send (HttpSession.answerTo after complete) result :: if closing then [.shutdown] else []) = some final) :
    ∃ later, session.message nullFind bytes = .ok later ∧ Serves final after later := by
  obtain ⟨valid, filled, received⟩ := reads
  rw [HttpRequest.parseRequest_eq valid, filled] at parsed
  have isRequest : request = session.request := serves.request
  rw [isRequest] at parsed
  obtain ⟨sent, stepped, ran⟩ := Option.bind_eq_some_iff.mp ran
  have shown := (received after).sent (Outcome.toOption_eq_some_iff.mp stepped)
  refine ⟨_, by rw [HttpSession.message, parsed]; rfl, ?_⟩
  cases closing with
  | false =>
      cases ran
      exact shown
  | true =>
      cases ran
      exact shown.shutDown

end Operations

section Functors

variable {server next : TcpServer} {outcome : Outcome TcpServer} {event : TcpServer.Event}

/-- A functor that the server itself queues, or one that calls no connection. -/
def isOwn : PendingFunctor → Bool
  | .user | .connectDestroyed _ => true
  | .sendInLoop _ _ | .shutdownInLoop _ | .closeConnectionInLoop _ => false

def Own (server : TcpServer) : Prop :=
  ∀ func ∈ server.loop.waiting ++ server.callers.map Prod.snd, isOwn func = true

theorem Own.same (own : Own server) (waiting : next.loop.waiting = server.loop.waiting)
    (callers : next.callers = server.callers) : Own next := by
  rw [Own, waiting, callers]
  exact own

theorem Own.queued (own : Own server) {func : PendingFunctor} (isOwn : isOwn func = true)
    (queued : server.loop.Queued func next.loop) (callers : next.callers = server.callers) : Own next := by
  intro found member
  rw [callers] at member
  cases queued.mem member with
  | inl before => exact own found before
  | inr same => exact same ▸ isOwn

private theorem does_own {revived : Bool} {effect : TcpServer.Effect} (does : server.Does revived effect outcome)
    (own : Own server) (performed : outcome = .ok next) : Own next := by
  rcases does.queue performed with ⟨callers, same | ⟨id, queued⟩⟩
  · exact own.same same.waiting callers
  · exact own.queued rfl queued callers

/-- The next functor is one of the server's own, and the others are behind it. -/
theorem Own.call (own : Own server) {index : Nat} (phase : server.loop.phase = .running index) :
    Own { server with loop := server.loop.callNext index } ∧
      ∀ func ∈ server.loop.tempFunctors[index]?, isOwn func = true := by
  obtain ⟨-, -, waiting⟩ := EventLoop.callNext_spec phase
  cases selected : server.loop.tempFunctors[index]? with
  | none =>
      rw [selected] at waiting
      exact ⟨own.same waiting rfl, nofun⟩
  | some func =>
      rw [selected] at waiting
      refine ⟨fun other member => own other ?_, fun other same => ?_⟩
      · rw [waiting]
        exact List.mem_cons_of_mem _ member
      · cases same
        refine own func ?_
        rw [waiting]
        exact List.mem_cons_self

theorem Own.calm (own : Own server) (enabled : event.Enabled server) : server.isRevival event = false := by
  cases event with
  | loop | poll | handle | request | foreign | push | release => rfl
  | call result =>
      obtain ⟨index, phase, isNext, -⟩ := TcpServer.perform_call enabled
      rw [TcpServer.isRevival, isNext]
      cases selected : server.loop.tempFunctors[index]? with
      | none => rfl
      | some func =>
          have isOwn := (own.call phase).2 func selected
          cases func with
          | user | connectDestroyed => rfl
          | sendInLoop | shutdownInLoop | closeConnectionInLoop => cases isOwn

private theorem perform_own (steady : server.Steady) (own : Own server) (inside : isOutside event = false)
    (enabled : event.Enabled server) (performed : server.perform event = .ok next) : Own next := by
  cases event with
  | loop event =>
      obtain ⟨loop, loopPerformed, same⟩ := Outcome.bind_pure_eq_ok_iff.mp performed
      cases same
      exact own.same (EventLoop.plain_spec enabled.1 enabled.2.1 loopPerformed).1 rfl
  | poll ready =>
      cases performed
      exact own.same (EventLoop.pollReturns_waiting enabled.1) rfl
  | handle reports =>
      cases agenda : server.agenda with
      | nil => exact absurd agenda enabled.2.1
      | cons entry rest =>
          simp only [TcpServer.perform, agenda] at performed
          exact does_own (TcpServer.handle_does steady.sound enabled agenda).2 own performed
  | call result =>
      obtain ⟨index, phase, isNext, loopPerformed⟩ := TcpServer.perform_call enabled
      have called := (own.call phase).1
      simp only [TcpServer.perform, loopPerformed, Outcome.ok_bind, isNext] at performed
      cases selected : server.loop.tempFunctors[index]? with
      | none =>
          simp only [selected] at performed
          cases performed
          exact called
      | some func =>
          simp only [selected] at performed
          exact does_own (TcpServer.call_does result steady.sound phase selected).2 called performed
  | request op result =>
      cases op with
      | send | shutdown | closeConnection => cases inside
      | queueInLoop =>
          cases performed
          exact own.queued rfl (EventLoop.queueInLoop_queued server.loop .user) rfl
  | foreign thread op =>
      cases op with
      | send | shutdown | closeConnection => cases inside
      | queueInLoop =>
          cases performed
          intro func member
          simp only [List.map_cons, List.mem_append, List.mem_cons] at member
          rcases member with waits | same | calls
          · exact own func (List.mem_append_left _ waits)
          · exact same ▸ rfl
          · exact own func (List.mem_append_right _ calls)
  | push thread =>
      cases found : server.callers.lookup thread with
      | none =>
          simp only [TcpServer.perform, found] at performed
          cases performed
          exact own
      | some func =>
          simp only [TcpServer.perform, found] at performed
          cases performed
          have isOwn := own func (List.mem_append_right _ (TcpServer.mem_of_lookup found))
          have queued := EventLoop.push_queued server.loop func (thread :: server.loop.wakers)
          intro other member
          cases queued.mem member with
          | inr same => exact same ▸ isOwn
          | inl before =>
              rcases List.mem_append.mp before with waits | calls
              · exact own other (List.mem_append_left _ waits)
              · obtain ⟨caller, isCaller, same⟩ := List.mem_map.mp calls
                refine own other (List.mem_append_right _ (List.mem_map.mpr ⟨caller, ?_, same⟩))
                exact List.mem_of_mem_filter isCaller
  | release id =>
      obtain ⟨old, found, -⟩ := (Option.any_eq_true _ _).mp enabled.1
      simp only [TcpServer.perform, TcpServer.release, found] at performed
      cases performed
      exact own

/-- What an event of the program calls is something that a plain server hears. -/
theorem Own.hears (own : Own server) (inside : isOutside event = false) (enabled : event.Enabled server) {id : Nat}
    {operation : Operation} (called : server.operation event = some (id, operation)) (answer : WriteResult) :
    ∃ heard, HttpProgram.hears answer operation = some heard := by
  cases event with
  | loop | poll | push | release => cases called
  | handle reports =>
      obtain ⟨⟨watched, callback⟩, -, called⟩ := Option.bind_eq_some_iff.mp called
      cases watched with
      | acceptor | wakeup | timer => cases called
      | connection other =>
          cases callback <;>
            · cases called
              exact ⟨_, rfl⟩
  | call result =>
      obtain ⟨func, isNext, called⟩ := Option.bind_eq_some_iff.mp called
      obtain ⟨index, phase, isSelected, -⟩ := TcpServer.perform_call enabled
      have isOwn := (own.call phase).2 func (isSelected ▸ isNext)
      cases func with
      | user => cases called
      | connectDestroyed =>
          cases called
          exact ⟨_, rfl⟩
      | sendInLoop | shutdownInLoop | closeConnectionInLoop => cases isOwn
  | request op result =>
      cases op with
      | send | shutdown | closeConnection => cases inside
      | queueInLoop => cases called
  | foreign thread op =>
      cases op with
      | send | shutdown | closeConnection => cases inside
      | queueInLoop => cases called

end Functors

section Messages

variable {server final : TcpServer} {id : Nat} {text : Bytes} {closing : Bool} {result : WriteResult}

/-- The calls of `onMessage` on its connection. -/
def answering (id : Nat) (text : Bytes) (closing : Bool) (result : WriteResult) : List TcpServer.Event :=
  (.send id text :: if closing then [.shutdown id] else [] : List Request).map (.request · result)

private theorem served_answering (ran : run TcpServer.step server (answering id text closing result) = some final)
    (other : Nat) :
    TcpServer.served other server (answering id text closing result) =
      if other = id then .send text result :: if closing then [.shutdown] else [] else [] := by
  obtain ⟨middle, stepped, ran⟩ := Option.bind_eq_some_iff.mp ran
  have first : server.operation (.request (.send id text) result) = some (id, .send text result) := rfl
  have last : middle.operation (.request (.shutdown id) result) = some (id, .shutdown) := rfl
  rw [answering, List.map_cons, TcpServer.served_cons stepped, first]
  cases closing with
  | false =>
      by_cases same : other = id
      · rw [if_pos same, same, TcpServer.only_self]
        rfl
      · rw [if_neg same, TcpServer.only_of_ne (Ne.symm same)]
        rfl
  | true =>
      obtain ⟨next, steppedLast, -⟩ := Option.bind_eq_some_iff.mp ran
      have rest : TcpServer.served other middle ((if true then [.shutdown id] else []).map (.request · result)) =
          TcpServer.only other (some (id, .shutdown)) := by
        change TcpServer.served other middle [.request (.shutdown id) result] = _
        rw [TcpServer.served_cons steppedLast, last]
        exact List.append_nil _
      rw [rest]
      by_cases same : other = id
      · rw [if_pos same, same, TcpServer.only_self, TcpServer.only_self]
        rfl
      · rw [if_neg same, TcpServer.only_of_ne (Ne.symm same), TcpServer.only_of_ne (Ne.symm same)]
        rfl

private theorem answering_own (steady : server.Steady) (own : Own server)
    (ran : run TcpServer.step server (answering id text closing result) = some final) : final.Steady ∧ Own final := by
  refine run_preserves_of_mem (fun server => server.Steady ∧ Own server) ⟨steady, own⟩ ?_ ran
  intro server event member next both stepped
  obtain ⟨enabled, performed⟩ := TcpServer.step_eq_some_iff.mp stepped
  obtain ⟨op, isCall, same⟩ := List.mem_map.mp member
  subst same
  have calls : op = .send id text ∨ op = .shutdown id := by
    rcases List.mem_cons.mp isCall with first | rest
    · exact .inl first
    · split_ifs at rest
      · exact .inr (List.mem_singleton.mp rest)
      · cases rest
  refine ⟨both.1.step stepped rfl, ?_⟩
  rcases calls with isSend | isShutdown
  · subst isSend
    exact does_own (TcpServer.send_does both.1.sound (enabled.2 id rfl) text) both.2 performed
  · subst isShutdown
    exact does_own (TcpServer.shutdown_does both.1.sound (enabled.2 id rfl)) both.2 performed

end Messages

section Steps

variable {nullFind : NullFind} {program next : HttpProgram} {event : Event} {id : Nat}

/-- What a step of the program is made of. -/
inductive Steps (nullFind : NullFind) (program : HttpProgram) (event : Event) : HttpProgram → Prop where
  | silent {middle : TcpServer} (stepped : program.tcpServer.step event.1 = some middle)
      (undelivered : delivered (program.tcpServer.operation event.1) = none) :
      Steps nullFind program event { program with tcpServer := middle }
  | answers {middle final : TcpServer} {id : Nat} {connection : Connection} {after : HttpRequest}
      {complete closing : Bool} (stepped : program.tcpServer.step event.1 = some middle)
      (isDelivered : delivered (program.tcpServer.operation event.1) = some id)
      (found : middle.conns[id]? = some connection)
      (parsed : (program.requests id).parseRequest nullFind connection.conn.inputBuffer = .ok (after, complete))
      (ran : run TcpServer.step middle (answering id (HttpSession.answerTo after complete) closing event.2) =
        some final) :
      Steps nullFind program event { tcpServer := final, requests := Function.update program.requests id after }

theorem steps_of_step (stepped : step nullFind program event = some next) :
    isOutside event.1 = false ∧ Steps nullFind program event next := by
  unfold step at stepped
  split_ifs at stepped with outside
  obtain ⟨middle, first, stepped⟩ := Option.bind_eq_some_iff.mp stepped
  refine ⟨Bool.eq_false_iff.mpr outside, ?_⟩
  cases isDelivered : delivered (program.tcpServer.operation event.1) with
  | none =>
      rw [isDelivered] at stepped
      cases stepped
      exact .silent first isDelivered
  | some id =>
      rw [isDelivered] at stepped
      obtain ⟨connection, found, stepped⟩ := Option.bind_eq_some_iff.mp stepped
      obtain ⟨⟨after, calls⟩, called, stepped⟩ := Option.bind_eq_some_iff.mp stepped
      have made := Outcome.toOption_eq_some_iff.mp called
      obtain ⟨⟨other, complete⟩, parsed, -⟩ := Outcome.bind_eq_ok_iff.mp made
      obtain ⟨closing, same⟩ := onMessage_spec id parsed
      cases made.symm.trans same
      obtain ⟨final, ran, isLast⟩ := Option.bind_eq_some_iff.mp stepped
      cases isLast
      exact .answers first isDelivered found parsed ran

theorem delivered_eq_some_iff {called : Option (Nat × Operation)} :
    delivered called = some id ↔ ∃ bytes, bytes ≠ [] ∧ called = some (id, .handleRead (.received bytes)) := by
  unfold delivered
  constructor
  · intro isDelivered
    split at isDelivered
    · cases isDelivered
      exact ⟨_, List.cons_ne_nil _ _, rfl⟩
    · cases isDelivered
  · rintro ⟨bytes, nonempty, called⟩
    subst called
    cases bytes with
    | nil => exact absurd rfl nonempty
    | cons first rest => rfl

structure Sound (program : HttpProgram) : Prop where
  steady : program.tcpServer.Steady
  own : Own program.tcpServer
  unseen : ∀ id, program.tcpServer.conns[id]? = none → program.requests id = .new

/-- A connection of the program, beside a plain server. -/
def Beside (program : HttpProgram) (id : Nat) (session : HttpSession) : Prop :=
  ∃ connection, program.tcpServer.conns[id]? = some connection ∧ Serves connection.conn (program.requests id) session

private theorem step_own (sound : program.Sound) (inside : isOutside event.1 = false) {middle : TcpServer}
    (stepped : program.tcpServer.step event.1 = some middle) : middle.Steady ∧ Own middle := by
  obtain ⟨enabled, performed⟩ := TcpServer.step_eq_some_iff.mp stepped
  have own := perform_own sound.steady sound.own inside enabled performed
  exact ⟨sound.steady.step stepped (sound.own.calm enabled), own⟩

/-- No connection disappears. -/
theorem absent_of_run {server final : TcpServer} {events : List TcpServer.Event}
    (ran : run TcpServer.step server events = some final) (absent : final.conns[id]? = none) :
    server.conns[id]? = none := by
  cases found : server.conns[id]? with
  | none => rfl
  | some old =>
      obtain ⟨new, present, -⟩ := TcpServer.run_alone ran found
      cases absent.symm.trans present

private theorem absent_of_step {server middle : TcpServer} {event : TcpServer.Event} (stepped : server.step event = some middle)
    (absent : middle.conns[id]? = none) : server.conns[id]? = none := by
  have ran : run TcpServer.step server [event] = some middle := by
    rw [run_cons, stepped]
    rfl
  exact absent_of_run ran absent

theorem Sound.step (sound : program.Sound) (stepped : step nullFind program event = some next) : next.Sound := by
  obtain ⟨inside, steps⟩ := steps_of_step stepped
  cases steps with
  | silent first undelivered =>
      obtain ⟨steady, own⟩ := step_own sound inside first
      exact ⟨steady, own, fun id absent => sound.unseen id (absent_of_step first absent)⟩
  | @answers middle final id connection after complete closing first isDelivered found parsed ran =>
      obtain ⟨steady, own⟩ := step_own sound inside first
      obtain ⟨finalSteady, finalOwn⟩ := answering_own steady own ran
      refine ⟨finalSteady, finalOwn, fun other absent => ?_⟩
      have before := absent_of_run ran absent
      have apart : other ≠ id := by
        intro same
        subst same
        cases before.symm.trans found
      exact (Function.update_of_ne apart _ _).trans (sound.unseen other (absent_of_step first before))

private theorem serves_of_alone {old new : Connection} {request : HttpRequest} {session : HttpSession}
    (alone : TcpServer.Alone old new []) (serves : Serves old.conn request session) :
    Serves new.conn request session := by
  obtain ⟨conn, ran, same⟩ := alone.conn
  cases ran
  rw [← same]
  exact serves.setIndex

/-- The operation of one connection by a step. -/
theorem operated_of_alone {old new : Connection} {operation : Operation} (alone : TcpServer.Alone old new [operation]) :
    ∃ conn, old.conn.operate operation = .ok conn ∧ conn.setIndex new.conn.channel.index = new.conn := by
  obtain ⟨conn, ran, same⟩ := alone.conn
  obtain ⟨middle, stepped, ran⟩ := Option.bind_eq_some_iff.mp ran
  cases ran
  exact ⟨conn, Outcome.toOption_eq_some_iff.mp stepped, same⟩

/-- A step, for the connection that reads a message: it is parsed and answered. -/
theorem answers_beside {middle final : TcpServer} {old : Connection} {request after : HttpRequest}
    {session : HttpSession} {connection : Connection} {complete closing : Bool} {result : WriteResult} {bytes : Bytes}
    (nonempty : bytes ≠ []) (serves : Serves old.conn request session)
    (honest : old.conn.Honest (.handleRead (.received bytes))) (found : middle.conns[id]? = some connection)
    (alone : TcpServer.Alone old connection [.handleRead (.received bytes)])
    (parsed : request.parseRequest nullFind connection.conn.inputBuffer = .ok (after, complete))
    (ran : run TcpServer.step middle (answering id (HttpSession.answerTo after complete) closing result) = some final) :
    ∃ new later, final.conns[id]? = some new ∧ session.message nullFind bytes = .ok later ∧
      Serves new.conn after later := by
  obtain ⟨conn, operated, isConnection⟩ := operated_of_alone alone
  have reads : connection.conn.inputBuffer.Valid ∧ connection.conn.inputBuffer.readable = session.received ++ bytes ∧
      ∀ after, Serves connection.conn after
        { session with request := after, received := session.received ++ bytes } := by
    obtain ⟨valid, filled, received⟩ := serves.reads nonempty honest operated
    rw [← isConnection]
    exact ⟨valid, filled, fun after => (received after).setIndex⟩
  obtain ⟨new, present, answers⟩ := TcpServer.run_alone ran found
  rw [served_answering ran, if_pos rfl] at answers
  obtain ⟨last, ranLast, isLast⟩ := answers.conn
  obtain ⟨later, message, shown⟩ := serves.answered reads result parsed ranLast
  refine ⟨new, later, present, message, ?_⟩
  rw [← isLast]
  exact shown.setIndex

theorem Beside.step {session : HttpSession} (beside : Beside program id session) (sound : program.Sound)
    (stepped : step nullFind program event = some next) :
    ∃ later, run (HttpSession.step nullFind) session
        ((TcpServer.only id (program.tcpServer.operation event.1)).filterMap (hears event.2)) = some later ∧
      Beside next id later := by
  obtain ⟨old, found, serves⟩ := beside
  obtain ⟨inside, steps⟩ := steps_of_step stepped
  have moved : ∀ middle, program.tcpServer.step event.1 = some middle → event.1.Enabled program.tcpServer ∧
      ∃ new, middle.conns[id]? = some new ∧
        TcpServer.Alone old new (TcpServer.only id (program.tcpServer.operation event.1)) := by
    intro middle first
    obtain ⟨enabled, performed⟩ := TcpServer.step_eq_some_iff.mp first
    exact ⟨enabled, (TcpServer.perform_moves performed).alone found
      fun operation called => TcpServer.honest_of_enabled enabled called found⟩
  cases steps with
  | @silent middle first undelivered =>
      obtain ⟨enabled, new, present, alone⟩ := moved middle first
      cases called : program.tcpServer.operation event.1 with
      | none =>
          rw [called] at alone
          exact ⟨session, rfl, new, present, serves_of_alone alone serves⟩
      | some call =>
          obtain ⟨other, operation⟩ := call
          rw [called] at alone undelivered
          by_cases same : other = id
          · subst same
            rw [TcpServer.only_self] at alone ⊢
            obtain ⟨conn, operated, isNew⟩ := operated_of_alone alone
            obtain ⟨heard, isHeard⟩ := sound.own.hears inside enabled called event.2
            have honest := TcpServer.honest_of_enabled enabled called found
            obtain ⟨later, hears, shown⟩ := operate_serves serves honest operated undelivered isHeard
            refine ⟨later, ?_, new, present, ?_⟩
            · rw [List.filterMap_cons_some isHeard, List.filterMap_nil, run_cons, hears]
              rfl
            · rw [← isNew]
              exact shown.setIndex
          · rw [TcpServer.only_of_ne same] at alone ⊢
            exact ⟨session, rfl, new, present, serves_of_alone alone serves⟩
  | @answers middle final other connection after complete closing first isDelivered isFound parsed ran =>
      obtain ⟨enabled, new, present, alone⟩ := moved middle first
      obtain ⟨bytes, nonempty, called⟩ := delivered_eq_some_iff.mp isDelivered
      rw [called] at alone ⊢
      by_cases same : other = id
      · subst same
        cases present.symm.trans isFound
        rw [TcpServer.only_self] at alone ⊢
        have honest := TcpServer.honest_of_enabled enabled called found
        obtain ⟨last, later, isLast, message, shown⟩ := answers_beside nonempty serves honest present alone parsed ran
        refine ⟨later, ?_, last, isLast, ?_⟩
        · have plain : session.step nullFind (.readable (.received bytes) event.2) = some later := by
            rw [HttpSession.step, HttpSession.handle, if_neg nonempty, message]
            rfl
          have isHeard : hears event.2 (.handleRead (.received bytes)) =
              some (.readable (.received bytes) event.2) := rfl
          rw [List.filterMap_cons_some isHeard, List.filterMap_nil, run_cons, plain]
          rfl
        · have updated : Function.update program.requests other after other = after := Function.update_self _ _ _
          change Serves last.conn (Function.update program.requests other after other) later
          rw [updated]
          exact shown
      · rw [TcpServer.only_of_ne same] at alone ⊢
        obtain ⟨last, isLast, silent⟩ := TcpServer.run_alone ran present
        rw [served_answering ran, if_neg (Ne.symm same)] at silent
        refine ⟨session, rfl, last, isLast, ?_⟩
        have kept : Function.update program.requests other after id = program.requests id :=
          Function.update_of_ne (Ne.symm same) _ _
        change Serves last.conn (Function.update program.requests other after id) session
        rw [kept]
        exact serves_of_alone silent (serves_of_alone alone serves)

/-- A connection that a run accepts and does not call is a new one. -/
theorem accepted_serves {server final : TcpServer} {events : List TcpServer.Event} {new : Connection}
    (ran : run TcpServer.step server events = some final) (absent : server.conns[id]? = none)
    (uncalled : TcpServer.served id server events = []) (found : final.conns[id]? = some new) :
    Serves new.conn .new .new := by
  obtain ⟨sockfd, first, isOpened, alone⟩ := TcpServer.run_accepted ran absent found
  rw [uncalled] at alone
  refine serves_of_alone alone ?_
  rw [← isOpened]
  exact (opened_serves sockfd).setIndex

private theorem step_absent (sound : program.Sound) (absent : program.tcpServer.conns[id]? = none)
    (stepped : step nullFind program event = some next) :
    TcpServer.only id (program.tcpServer.operation event.1) = [] ∧
      (next.tcpServer.conns[id]?.isSome = true → Beside next id .new) := by
  obtain ⟨-, steps⟩ := steps_of_step stepped
  have uncalled : ∀ middle, program.tcpServer.step event.1 = some middle →
      TcpServer.only id (program.tcpServer.operation event.1) = [] := fun middle first =>
    ((TcpServer.perform_moves (TcpServer.step_eq_some_iff.mp first).2).absent absent).1
  cases steps with
  | @silent middle first undelivered =>
      refine ⟨uncalled middle first, fun present => ?_⟩
      obtain ⟨new, found⟩ := Option.isSome_iff_exists.mp present
      have ran : run TcpServer.step program.tcpServer [event.1] = some middle := by
        rw [run_cons, first]
        rfl
      have served : TcpServer.served id program.tcpServer [event.1] = [] := by
        rw [TcpServer.served_cons first, uncalled middle first]
        rfl
      refine ⟨new, found, ?_⟩
      rw [sound.unseen id absent]
      exact accepted_serves ran absent served found
  | @answers middle final other connection after complete closing first isDelivered isFound parsed ranLast =>
      refine ⟨uncalled middle first, fun present => ?_⟩
      obtain ⟨new, found⟩ := Option.isSome_iff_exists.mp present
      obtain ⟨bytes, -, called⟩ := delivered_eq_some_iff.mp isDelivered
      have apart : id ≠ other := by
        intro same
        have isCalled := uncalled middle first
        rw [called, same, TcpServer.only_self] at isCalled
        cases isCalled
      have ran : run TcpServer.step program.tcpServer
          (event.1 :: answering other (HttpSession.answerTo after complete) closing event.2) = some final := by
        rw [run_cons, first]
        exact ranLast
      have served : TcpServer.served id program.tcpServer
          (event.1 :: answering other (HttpSession.answerTo after complete) closing event.2) = [] := by
        rw [TcpServer.served_cons first, uncalled middle first, served_answering ranLast, if_neg apart]
        rfl
      refine ⟨new, found, ?_⟩
      have kept : Function.update program.requests other after id = program.requests id :=
        Function.update_of_ne apart _ _
      change Serves new.conn (Function.update program.requests other after id) .new
      rw [kept, sound.unseen id absent]
      exact accepted_serves ran absent served found

private theorem heard_cons {rest : List Event} (stepped : step nullFind program event = some next) :
    heard nullFind id program (event :: rest) =
      (TcpServer.only id (program.tcpServer.operation event.1)).filterMap (hears event.2) ++
        heard nullFind id next rest := by
  rw [heard, stepped, Option.elim_some]

private theorem run_beside {session : HttpSession} {events : List Event} {final : HttpProgram}
    (beside : Beside program id session) (sound : program.Sound)
    (ran : run (step nullFind) program events = some final) :
    ∃ later, run (HttpSession.step nullFind) session (heard nullFind id program events) = some later ∧
      Beside final id later := by
  induction events generalizing program session with
  | nil =>
      cases ran
      exact ⟨session, rfl, beside⟩
  | cons event rest ih =>
      obtain ⟨next, stepped, ranRest⟩ := Option.bind_eq_some_iff.mp ran
      obtain ⟨middle, first, nextBeside⟩ := beside.step sound stepped
      obtain ⟨later, last, finalBeside⟩ := ih nextBeside (sound.step stepped) ranRest
      refine ⟨later, ?_, finalBeside⟩
      rw [heard_cons stepped, run_append, first]
      exact last

private theorem run_absent {events : List Event} {final : HttpProgram} (sound : program.Sound)
    (absent : program.tcpServer.conns[id]? = none) (ran : run (step nullFind) program events = some final)
    (found : final.tcpServer.conns[id]?.isSome = true) :
    ∃ later, run (HttpSession.step nullFind) .new (heard nullFind id program events) = some later ∧
      Beside final id later := by
  induction events generalizing program with
  | nil =>
      cases ran
      rw [absent] at found
      cases found
  | cons event rest ih =>
      obtain ⟨next, stepped, ranRest⟩ := Option.bind_eq_some_iff.mp ran
      obtain ⟨uncalled, begins⟩ := step_absent sound absent stepped
      rw [heard_cons stepped, uncalled]
      cases present : next.tcpServer.conns[id]? with
      | none => exact ih (sound.step stepped) present ranRest
      | some new => exact run_beside (begins (by rw [present]; rfl)) (sound.step stepped) ranRest

theorem start_sound {name : String} {residents : Residents} {runing : Bool}
    (started : start name residents runing = .ok program) :
    program.Sound ∧ ∀ id : Nat, program.tcpServer.conns[id]? = none := by
  obtain ⟨server, isServer, same⟩ := Outcome.bind_pure_eq_ok_iff.mp started
  subst same
  obtain ⟨sound, forgotten⟩ := TcpServer.start_sound isServer
  obtain ⟨other, isOther, -, -, -, conns, loop, -, callers⟩ := TcpServer.start_spec name residents runing
  cases isServer.symm.trans isOther
  refine ⟨⟨⟨sound, forgotten, ?_⟩, ?_, fun _ _ => rfl⟩, fun id => ?_⟩
  · rw [TcpServer.Restful, loop]
    exact EventLoop.new_orderly runing
  · intro func member
    rw [loop, callers] at member
    cases member
  · rw [conns, List.getElem?_nil]

end Steps

/-- In every run of the program, with any connections, bytes cut anywhere and
any results of the writes: what the kernel took of a connection, followed by
what waits, is the answers of a plain server that hears what happens to this
connection and nothing of the others. -/
theorem connections_served (nullFind : NullFind) (name : String) (residents : Residents) (runing : Bool)
    (events : List Event) {program final : HttpProgram} (started : start name residents runing = .ok program)
    (ran : run (step nullFind) program events = some final) (id : Nat) (connection : Connection)
    (found : final.tcpServer.conns[id]? = some connection) :
    ∃ session, run (HttpSession.step nullFind) .new (heard nullFind id program events) = some session ∧
      connection.conn.calls.flatMap Call.accepted ++ connection.conn.outputBuffer.readable = session.answers.flatten ∧
      connection.conn.inputBuffer.readable = session.received ∧
      (connection.conn.state = .connected ↔ session.connected = true) := by
  obtain ⟨sound, absent⟩ := start_sound started
  obtain ⟨session, hears, other, isConnection, serves⟩ := run_absent sound (absent id) ran (by rw [found]; rfl)
  cases found.symm.trans isConnection
  exact ⟨session, hears, serves.answers, serves.received, serves.connected_iff⟩

/-- Two connections; a request of the first one comes in two pieces, and the
answers to it leave in pieces. -/
def twoClients : List Event :=
  [.loop .enterLoop, .loop .testQuit, .poll [(5, 1)], .handle ⟨.failed, .failed, some 7⟩, .loop .handlersDone,
    .loop .swap, .call .failed, .loop .testQuit, .poll [(5, 1), (7, 1)], .handle ⟨.failed, .failed, some 8⟩,
    .handle ⟨.received (ascii "GET /"), .failed, none⟩, .loop .handlersDone, .loop .swap, .call .failed,
    .loop .testQuit, .poll [(8, 1), (7, 5)],
    .handle ⟨.received (ascii "GET / HTTP/1.1\r\nHost: b\r\n\r\n"), .failed, none⟩,
    .handle ⟨.received (ascii " HTTP/1.1\r\nHost: a\r\n\r\n"), .failed, none⟩,
    .handle ⟨.failed, .wrote 30, none⟩].map fun event => (event, .wrote 3)

theorem connections_served_two : ∃ program final connection session,
    start "nut" ⟨3, 4, 5, by decide⟩ false = .ok program ∧
    run (step .returnsLast) program twoClients = some final ∧ final.tcpServer.conns[0]? = some connection ∧
    run (HttpSession.step .returnsLast) .new [.readable (.received (ascii "GET /")) (.wrote 3),
      .readable (.received (ascii " HTTP/1.1\r\nHost: a\r\n\r\n")) (.wrote 3), .writable (.wrote 30)] = some session ∧
    connection.conn.calls.flatMap Call.accepted ++ connection.conn.outputBuffer.readable = session.answers.flatten := by
  have reached : (start "nut" ⟨3, 4, 5, by decide⟩ false).toOption.any (fun program =>
      (run (step .returnsLast) program twoClients).any (fun final => final.tcpServer.conns[0]?.isSome) ∧
        heard .returnsLast 0 program twoClients = [.readable (.received (ascii "GET /")) (.wrote 3),
          .readable (.received (ascii " HTTP/1.1\r\nHost: a\r\n\r\n")) (.wrote 3), .writable (.wrote 30)]) = true := by
    decide +kernel
  obtain ⟨program, isProgram, holds⟩ := (Option.any_eq_true _ _).mp reached
  obtain ⟨ends, isHeard⟩ := of_decide_eq_true holds
  obtain ⟨final, ran, present⟩ := (Option.any_eq_true _ _).mp ends
  obtain ⟨connection, found⟩ := Option.isSome_iff_exists.mp present
  have started := Outcome.toOption_eq_some_iff.mp isProgram
  obtain ⟨session, hears, shown, -⟩ := connections_served .returnsLast "nut" ⟨3, 4, 5, by decide⟩ false twoClients
    started ran 0 connection found
  rw [isHeard] at hears
  exact ⟨program, final, connection, session, started, ran, found, hears, shown⟩

end HttpProgram

end NutServer.Net
