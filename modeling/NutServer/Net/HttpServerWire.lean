import NutServer.Library.Simulation
import NutServer.Net.HttpResponseText
import NutServer.Net.HttpServerHalfClose
import NutServer.Net.HttpServerPipeline
import NutServer.Net.TcpConnectionOperations

/-!
# What goes over the wire

A plain server beside a connection: it has no buffers and no writes, and gives
each message one answer. The bytes that a connection sends, whatever the writes
take of them, are the answers of the plain server. The half-close ends the
writing: no write behind it takes anything, and the answers wait for ever.
-/

set_option autoImplicit false

namespace NutServer.Net

open Library

/-- What one connection is for: the bytes received and the answers given. -/
structure HttpSession where
  request : HttpRequest
  received : Bytes
  connected : Bool
  answers : List Bytes

namespace HttpSession

def new : HttpSession where
  request := .new
  received := []
  connected := true
  answers := []

def response (request : HttpRequest) : HttpResponse := HttpResponse.new.setResponse request

/-- The answer to a message behind which the request is complete or not. -/
def answerTo (request : HttpRequest) (complete : Bool) : Bytes :=
  if complete then (response request).text else HttpServer.badRequest

/-- A message is parsed with all that came before it, and answered while the
connection is up. -/
def message (nullFind : NullFind) (session : HttpSession) (bytes : Bytes) : Outcome HttpSession := do
  let received := session.received ++ bytes
  let (request, complete) ← HttpRequest.parseText nullFind session.request received
  let answers := if session.connected then session.answers ++ [answerTo request complete] else session.answers
  return { session with request, received, answers }

def handle (nullFind : NullFind) (session : HttpSession) : HttpServer.Event → Outcome HttpSession
  | .readable (.received bytes) _ =>
      if bytes = [] then do
        assert (session.connected = true)
        return session
      else session.message nullFind bytes
  | .readable .failed _ | .writable _ => return session
  | .destroyed => do
      assert (session.connected = true)
      return { session with connected := false }

def step (nullFind : NullFind) (session : HttpSession) (event : HttpServer.Event) : Option HttpSession :=
  (session.handle nullFind event).toOption

end HttpSession

namespace HttpServer

/-- What the kernel can report to a process that ignores SIGPIPE: no more bytes
than there is room for, no more written than were waiting, and EPIPE for every
write behind `::shutdown(SHUT_WR)`. -/
def Possible (conn : TcpConnection) : Event → Prop
  | .readable (.received bytes) answer =>
      bytes.length ≤ conn.inputBuffer.writableBytes + Buffer.extrabufSize ∧
        (halfClosed conn = true → answer = .failed)
  | .writable result =>
      result.nWrote ≤ conn.outputBuffer.readableBytes ∧ (halfClosed conn = true → result = .failed)
  | .readable .failed _ | .destroyed => True

instance decidablePossible (conn : TcpConnection) : ∀ event : Event, Decidable (Possible conn event)
  | .readable (.received bytes) answer => inferInstanceAs (Decidable
      (bytes.length ≤ conn.inputBuffer.writableBytes + Buffer.extrabufSize ∧
        (halfClosed conn = true → answer = .failed)))
  | .writable result => inferInstanceAs (Decidable
      (result.nWrote ≤ conn.outputBuffer.readableBytes ∧ (halfClosed conn = true → result = .failed)))
  | .readable .failed _ | .destroyed => isTrue trivial

structure Shows (conn : TcpConnection) (session : HttpSession) : Prop where
  valid : BuffersValid conn
  up : conn.state = if session.connected then .connected else .disconnected
  request : conn.request = session.request
  received : conn.inputBuffer.readable = session.received
  answers : conn.stream = session.answers.flatten

theorem established_shows (sockfd : Nat) : Shows (established sockfd) .new where
  valid := established_valid sockfd
  up := rfl
  request := rfl
  received := Buffer.fresh_readable
  answers := by
    change ([] : Bytes) ++ Buffer.fresh.readable = _
    rw [Buffer.fresh_readable]
    rfl

variable {conn next : TcpConnection} {session : HttpSession} {nullFind : NullFind} {result : WriteResult}
  {event : Event}

theorem Shows.connected_iff (same : Shows conn session) : conn.state = .connected ↔ session.connected = true := by
  rw [same.up]
  cases session.connected <;> simp

/-- An answer adds its text to the stream while the connection is up. -/
theorem answer_stream (buffered : conn.Buffered) (text : Bytes) (closing : Bool)
    (answered : answer conn text closing result = .ok next) :
    next.stream = conn.stream ++ if conn.state = .connected then text else [] := by
  obtain ⟨sent, sending, answered⟩ := Outcome.bind_eq_ok_iff.mp answered
  obtain ⟨kept, streamed⟩ := TcpConnection.send_stream buffered sending
  cases answered
  cases closing with
  | false => exact streamed
  | true => exact (TcpConnection.shutdownInLoop_stream kept).2.trans streamed

/-- A parsed message is answered with the plain server's text. -/
theorem onMessage_answer (result : WriteResult) (valid : conn.outputBuffer.Valid) {request : HttpRequest} {complete : Bool}
    (parsed : conn.request.parseRequest nullFind conn.inputBuffer = .ok (request, complete)) :
    ∃ closing, onMessage nullFind result conn =
      answer (conn.setReq request) (HttpSession.answerTo request complete) closing result := by
  rw [onMessage_eq valid parsed]
  cases complete with
  | false => exact ⟨true, rejectMessage_eq⟩
  | true => exact ⟨_, onRequest_eq (render_spec request).1⟩

private theorem stream_of_silent {made : List Call} (calls : next.calls = conn.calls ++ made)
    (silent : made.flatMap Call.accepted = []) (output : next.outputBuffer = conn.outputBuffer) :
    next.stream = conn.stream := by
  rw [TcpConnection.stream_eq_wire, TcpConnection.wire_of_silent calls silent, output, TcpConnection.stream_eq_wire]

private theorem alike_of_ok {value : HttpSession} (stepped : handle nullFind conn event = .ok next)
    (plain : session.handle nullFind event = .ok value) (same : Shows next value) :
    Alike Shows (step nullFind conn event) (session.step nullFind event) := by
  rw [step, HttpSession.step, stepped, plain]
  exact .some same

private theorem alike_of_error {fault other : Fault} (stepped : handle nullFind conn event = .error fault)
    (plain : session.handle nullFind event = .error other) :
    Alike Shows (step nullFind conn event) (session.step nullFind event) := by
  rw [step, HttpSession.step, stepped, plain]
  exact .none

private theorem assert_not {condition : Prop} [Decidable condition] (fails : ¬ condition) :
    assert condition = .error .assertion := if_neg fails

/-- A message: both parse the same bytes, and fail or give the same answer. -/
theorem Shows.message (nullFind : NullFind) (result : WriteResult) (same : Shows conn session)
    {inputBuffer : Buffer} {bytes : Bytes} (valid : inputBuffer.Valid) (filled : inputBuffer.readable = session.received ++ bytes) :
    match session.message nullFind bytes with
    | .ok value => ∃ next, onMessage nullFind result { conn with inputBuffer } = .ok next ∧ Shows next value
    | .error fault => onMessage nullFind result { conn with inputBuffer } = .error fault := by
  have parses : ({ conn with inputBuffer } : TcpConnection).request.parseRequest nullFind inputBuffer =
      HttpRequest.parseText nullFind session.request (session.received ++ bytes) := by
    rw [HttpRequest.parseRequest_eq valid, filled, ← same.request]
  cases parsed : HttpRequest.parseText nullFind session.request (session.received ++ bytes) with
  | error fault =>
      have failed := parses.trans parsed
      simp only [HttpSession.message, parsed, onMessage, failed]
      rfl
  | ok outcome =>
      obtain ⟨request, complete⟩ := outcome
      have received : ({ conn with inputBuffer } : TcpConnection).request.parseRequest nullFind
          ({ conn with inputBuffer } : TcpConnection).inputBuffer = .ok (request, complete) := parses.trans parsed
      have output : ({ conn with inputBuffer } : TcpConnection).outputBuffer.Valid := same.valid.output
      have outputSet : (({ conn with inputBuffer } : TcpConnection).setReq request).outputBuffer.Valid := output
      obtain ⟨closing, isAnswer⟩ := onMessage_answer result output received
      obtain ⟨next, made, last, answered, after⟩ := answer_spec
        (({ conn with inputBuffer } : TcpConnection).setReq request) outputSet
        (HttpSession.answerTo request complete) closing result
      have stream := answer_stream ⟨valid, outputSet⟩ _ closing answered
      simp only [HttpSession.message, parsed, Outcome.ok_bind]
      refine ⟨next, isAnswer.trans answered, ⟨?_, after.valid⟩, ?_, after.same.request, ?_, ?_⟩
      · rw [after.same.inputBuffer]
        exact valid
      · exact after.same.state.trans same.up
      · rw [after.same.inputBuffer]
        exact filled
      · have before : (({ conn with inputBuffer } : TcpConnection).setReq request).stream = conn.stream := rfl
        have up : (({ conn with inputBuffer } : TcpConnection).setReq request).state = conn.state := rfl
        rw [stream, before, up, same.answers]
        by_cases connected : session.connected = true
        · rw [if_pos (same.connected_iff.mpr connected), if_pos connected]
          simp
        · rw [if_neg fun isUp => connected (same.connected_iff.mp isUp), if_neg connected, List.append_nil]

/-- The end of the stream closes the connection and leaves the answers. -/
theorem Shows.closed {answer : WriteResult} {before : TcpConnection} (same : Shows conn session)
    (called : handle nullFind before (.readable (.received []) answer) = conn.handleClose) :
    Alike Shows (step nullFind before (.readable (.received []) answer))
      (session.step nullFind (.readable (.received []) answer)) := by
  by_cases connected : session.connected = true
  · have up := same.connected_iff.mpr connected
    have closes : conn.handleClose = .ok (conn.disableAll.call .closeCallback) := by
      rw [TcpConnection.handleClose, assert_of up]
      rfl
    have plain : session.handle nullFind (.readable (.received []) answer) = .ok session := by
      simp only [HttpSession.handle, if_true, assert_of connected]
      rfl
    obtain ⟨calls, _, reader, output⟩ := TcpConnection.handleClose_effect closes
    refine alike_of_ok (called.trans closes) plain
      ⟨⟨?_, ?_⟩, reader.state.trans same.up, reader.request.trans same.request, ?_, ?_⟩
    · rw [reader.inputBuffer]
      exact same.valid.input
    · rw [output]
      exact same.valid.output
    · rw [reader.inputBuffer]
      exact same.received
    · exact (stream_of_silent calls (by simp [Call.accepted]) output).trans same.answers
  · have down : ¬ conn.state = .connected := fun up => connected (same.connected_iff.mp up)
    have failed : conn.handleClose = .error .assertion := by
      rw [TcpConnection.handleClose, assert_not down]
      rfl
    have plain : session.handle nullFind (.readable (.received []) answer) = .error .assertion := by
      simp only [HttpSession.handle, if_true, assert_not connected]
      rfl
    exact alike_of_error (called.trans failed) plain

theorem Shows.step (same : Shows conn session) (possible : Possible conn event) :
    Alike Shows (step nullFind conn event) (session.step nullFind event) := by
  cases event with
  | readable read answer =>
      cases read with
      | failed =>
          have stepped : handle nullFind conn (.readable .failed answer) = .ok conn.handleError := rfl
          refine alike_of_ok stepped rfl
            ⟨⟨same.valid.input, same.valid.output⟩, same.up, same.request, same.received, ?_⟩
          rw [TcpConnection.handleError, TcpConnection.stream_call, ← same.answers, TcpConnection.stream]
          simp [Call.accepted]
      | received bytes =>
          obtain ⟨inputBuffer, read, valid, filled⟩ := Buffer.readFd_spec same.valid.input possible.1
          rw [same.received] at filled
          by_cases ended : bytes = []
          · subst ended
            rw [List.append_nil] at filled
            have called : handle nullFind conn (.readable (.received []) answer) =
                ({ conn with inputBuffer } : TcpConnection).handleClose := by
              simp only [handle, TcpConnection.handleRead, read, Outcome.ok_bind]
              rfl
            have shown : Shows { conn with inputBuffer } session :=
              ⟨⟨valid, same.valid.output⟩, same.up, same.request, filled, same.answers⟩
            exact shown.closed called
          · have positive : (0 : Int) < bytes.length := by
              have long := List.length_pos_iff.mpr ended
              omega
            have called : handle nullFind conn (.readable (.received bytes) answer) =
                onMessage nullFind answer { conn with inputBuffer } := by
              simp only [handle, TcpConnection.handleRead, read, Outcome.ok_bind, if_pos positive]
            have plain : session.handle nullFind (.readable (.received bytes) answer) =
                session.message nullFind bytes := if_neg ended
            have answered := same.message nullFind answer valid filled
            cases outcome : session.message nullFind bytes with
            | error fault =>
                rw [outcome] at answered
                exact alike_of_error (called.trans answered) (plain.trans outcome)
            | ok value =>
                rw [outcome] at answered
                obtain ⟨next, answers, nextSame⟩ := answered
                exact alike_of_ok (called.trans answers) (plain.trans outcome) nextSame
  | writable result =>
      obtain ⟨next, made, written, wrote, stream⟩ := TcpConnection.handleWrite_spec same.valid.output possible.1
      refine alike_of_ok written rfl ⟨⟨?_, wrote.valid⟩, wrote.same.state.trans same.up,
        wrote.same.request.trans same.request, ?_, stream.trans same.answers⟩
      · rw [wrote.same.inputBuffer]
        exact same.valid.input
      · rw [wrote.same.inputBuffer]
        exact same.received
  | destroyed =>
      by_cases connected : session.connected = true
      · have up := same.connected_iff.mpr connected
        obtain ⟨next, destroyed⟩ : ∃ next, conn.connectDestroyed onConnection = .ok next :=
          ⟨_, by rw [TcpConnection.connectDestroyed, assert_of up]; rfl⟩
        obtain ⟨calls, _, state, output, input, request⟩ := connectDestroyed_effect destroyed
        have plain : session.handle nullFind .destroyed = .ok { session with connected := false } := by
          rw [HttpSession.handle, assert_of connected]
          rfl
        refine alike_of_ok destroyed plain ⟨⟨?_, ?_⟩, state, request.trans same.request, ?_, ?_⟩
        · rw [input]
          exact same.valid.input
        · rw [output]
          exact same.valid.output
        · rw [input]
          exact same.received
        · exact (stream_of_silent calls (by simp [Call.accepted]) output).trans same.answers
      · have down : ¬ conn.state = .connected := fun up => connected (same.connected_iff.mp up)
        have failed : handle nullFind conn .destroyed = .error .assertion := by
          rw [handle, TcpConnection.connectDestroyed, assert_not down]
          rfl
        have plain : session.handle nullFind .destroyed = .error .assertion := by
          rw [HttpSession.handle, assert_not connected]
          rfl
        exact alike_of_error failed plain

/-- Behind the half-close the wire gets nothing more. -/
theorem step_frozen (valid : conn.outputBuffer.Valid) (closed : halfClosed conn = true)
    (possible : Possible conn event) (stepped : step nullFind conn event = some next) : next.wire = conn.wire := by
  have handled := Outcome.toOption_eq_some_iff.mp stepped
  cases event with
  | writable result =>
      have failed := possible.2 closed
      subst failed
      exact TcpConnection.wire_handleWrite_failed handled
  | destroyed =>
      obtain ⟨calls, _⟩ := connectDestroyed_effect handled
      exact TcpConnection.wire_of_silent calls (by simp [Call.accepted])
  | readable read answer =>
      rcases TcpConnection.handleRead_cases handled with
        ⟨_, rfl⟩ | ⟨_, inputBuffer, _, _, ended⟩ | ⟨bytes, inputBuffer, _, rfl, _, _, message⟩
      · exact TcpConnection.wire_of_silent rfl (by simp [Call.accepted])
      · obtain ⟨calls, _⟩ := TcpConnection.handleClose_effect ended
        exact TcpConnection.wire_of_silent calls (by simp [Call.accepted])
      · have failed := possible.2 closed
        subst failed
        have filled : ({ conn with inputBuffer } : TcpConnection).outputBuffer.Valid := valid
        obtain ⟨request, _, text, closing, _, _, answered⟩ := onMessage_cases filled message
        obtain ⟨sent, sending, answered⟩ := Outcome.bind_eq_ok_iff.mp answered
        have parsed : (({ conn with inputBuffer } : TcpConnection).setReq request).wire = conn.wire := rfl
        have unsent := (TcpConnection.wire_send_failed sending).trans parsed
        cases answered
        cases closing with
        | false => exact unsent
        | true => exact TcpConnection.wire_shutdownInLoop.trans unsent

private theorem halfClosed_step (valid : conn.outputBuffer.Valid) (closed : halfClosed conn = true)
    (stepped : step nullFind conn event = some next) : halfClosed next = true := by
  obtain ⟨_, made, calls⟩ := step_adds valid stepped
  rw [halfClosed, calls, List.any_append, show conn.calls.any Call.isShutdown = true from closed, Bool.true_or]

theorem run_frozen {events : List Event} {final : TcpConnection} (valid : conn.outputBuffer.Valid)
    (closed : halfClosed conn = true) (possible : Along (step nullFind) Possible conn events)
    (ran : run (step nullFind) conn events = some final) : final.wire = conn.wire := by
  refine (run_preserves_along (fun later => later.outputBuffer.Valid ∧ halfClosed later = true ∧ later.wire = conn.wire)
    ⟨valid, closed, rfl⟩ ?_ possible ran).2.2
  rintro later event next ⟨laterValid, laterClosed, same⟩ allowed stepped
  exact ⟨(step_adds laterValid stepped).1, halfClosed_step laterValid laterClosed stepped,
    (step_frozen laterValid laterClosed allowed stepped).trans same⟩

theorem valid_of_run {sockfd : Nat} {events : List Event}
    (reached : run (step nullFind) (established sockfd) events = some conn) : conn.outputBuffer.Valid :=
  run_preserves (fun conn => conn.outputBuffer.Valid) Buffer.fresh_valid
    (fun _ _ _ valid stepped => (step_adds valid stepped).1) reached

private theorem isMessage_iff {bytes : Bytes} {answer : WriteResult} :
    (Event.readable (.received bytes) answer).isMessage = true ↔ bytes ≠ [] := by
  simp [Event.isMessage]

/-- The step that half-closes a connection is a message, and its answer has left. -/
theorem drained_of_halfClose (valid : conn.outputBuffer.Valid) (connected : conn.state = .connected)
    (isOpen : halfClosed conn = false) (stepped : step nullFind conn event = some next)
    (closed : halfClosed next = true) : event.isMessage = true ∧ next.outputBuffer.readable = [] := by
  have handled := Outcome.toOption_eq_some_iff.mp stepped
  have opened : ∀ {made : List Call}, next.calls = conn.calls ++ made →
      ¬ ∀ entry ∈ made, entry.isShutdown = false := by
    intro made calls none
    rw [halfClosed_of_calls calls none, isOpen] at closed
    cases closed
  cases event with
  | writable result =>
      obtain ⟨made, wrote, _⟩ := TcpConnection.handleWrite_wrote valid handled
      exact absurd (fun entry member => isShutdown_of_isOutput (wrote.output entry member)) (opened wrote.calls)
  | destroyed =>
      obtain ⟨calls, _⟩ := connectDestroyed_effect handled
      exact absurd (by simp [Call.isShutdown]) (opened calls)
  | readable read answer =>
      rcases readable_cases valid handled with ⟨_, rfl⟩ | ⟨_, inputBuffer, _, _, ended⟩ |
        ⟨bytes, inputBuffer, _, request, _, text, made, last, rfl, some, _, _, nonempty, answered⟩
      · have calls : conn.handleError.calls = conn.calls ++ [.getSocketError] := rfl
        exact absurd (by simp [Call.isShutdown]) (opened calls)
      · obtain ⟨calls, _⟩ := TcpConnection.handleClose_effect ended
        exact absurd (by simp [Call.isShutdown]) (opened calls)
      · refine ⟨isMessage_iff.mpr some, ?_⟩
        rcases answered.last with rfl | ⟨_, _, quiet⟩
        · refine absurd ?_ (opened answered.calls)
          simp only [List.append_nil, List.forall_mem_cons]
          exact ⟨rfl, fun entry member => isShutdown_of_isOutput (answered.output entry member)⟩
        · exact answered.drained connected nonempty quiet

/-- The plain server answers what reaches it while it is up. -/
theorem step_answers {after : HttpSession} (stepped : session.step nullFind event = some after) :
    (after.connected = true ↔ session.connected = true ∧ event ≠ .destroyed) ∧
      ∃ given : List Bytes, after.answers = session.answers ++ given ∧
        given.length = if session.connected = true ∧ event.isMessage = true then 1 else 0 := by
  have handled := Outcome.toOption_eq_some_iff.mp stepped
  have silent : event ≠ .destroyed → event.isMessage = false → after = session →
      (after.connected = true ↔ session.connected = true ∧ event ≠ .destroyed) ∧
        ∃ given : List Bytes, after.answers = session.answers ++ given ∧
          given.length = if session.connected = true ∧ event.isMessage = true then 1 else 0 := by
    rintro lasting quiet rfl
    exact ⟨by simp [lasting], [], by simp, by simp [quiet]⟩
  cases event with
  | writable result =>
      cases handled
      exact silent (by simp) rfl rfl
  | destroyed =>
      obtain ⟨_, _, handled⟩ := Outcome.bind_eq_ok_iff.mp handled
      cases handled
      exact ⟨by simp, [], by simp, by simp [Event.isMessage]⟩
  | readable read answer =>
      cases read with
      | failed =>
          cases handled
          exact silent (by simp) rfl rfl
      | received bytes =>
          by_cases ended : bytes = []
          · rw [HttpSession.handle, if_pos ended] at handled
            obtain ⟨_, _, handled⟩ := Outcome.bind_eq_ok_iff.mp handled
            cases handled
            exact silent (by simp) (by simp [Event.isMessage, ended]) rfl
          · rw [HttpSession.handle, if_neg ended] at handled
            obtain ⟨⟨request, complete⟩, _, handled⟩ := Outcome.bind_eq_ok_iff.mp handled
            have message : (Event.readable (.received bytes) answer).isMessage = true := isMessage_iff.mpr ended
            cases handled
            refine ⟨by simp, if session.connected then [HttpSession.answerTo request complete] else [], ?_, ?_⟩
            · cases session.connected <;> simp
            · cases connected : session.connected <;> simp [message]

/-- Beside `Shows`: a half-closed connection has sent some of the first answers,
each of them whole. -/
structure Wired (conn : TcpConnection) (session : HttpSession) : Prop extends Shows conn session where
  cut : session.connected = true → halfClosed conn = true →
    ∃ sent, 0 < sent ∧ sent ≤ session.answers.length ∧ conn.wire = (session.answers.take sent).flatten

theorem established_wired (sockfd : Nat) : Wired (established sockfd) .new :=
  ⟨established_shows sockfd, nofun⟩

theorem Wired.step (same : Wired conn session) (possible : Possible conn event) :
    Alike Wired (step nullFind conn event) (session.step nullFind event) := by
  have shows : Alike Shows (HttpServer.step nullFind conn event) (session.step nullFind event) :=
    same.toShows.step possible
  cases stepped : HttpServer.step nullFind conn event with
  | none =>
      rw [stepped] at shows
      rw [shows.eq_none]
      exact .none
  | some next =>
      rw [stepped] at shows
      obtain ⟨after, plain, nextSame⟩ := shows.of_left
      rw [plain]
      refine .some ⟨nextSame, fun connected closed => ?_⟩
      obtain ⟨stays, given, answers, count⟩ := step_answers plain
      have up := (stays.mp connected).1
      have valid := same.valid.output
      cases before : halfClosed conn with
      | true =>
          -- The wire is as it was; later answers only wait.
          obtain ⟨sent, some, fits, wire⟩ := same.cut up before
          refine ⟨sent, some, ?_, ?_⟩
          · rw [answers, List.length_append]
            omega
          · rw [step_frozen valid before possible stepped, wire, answers, List.take_append_of_le_length fits]
      | false =>
          obtain ⟨message, drained⟩ := drained_of_halfClose valid (same.connected_iff.mpr up) before stepped closed
          have all : next.wire = after.answers.flatten := by
            rw [← nextSame.answers, TcpConnection.stream_eq_wire, drained, List.append_nil]
          rw [if_pos ⟨up, message⟩] at count
          refine ⟨after.answers.length, ?_, le_rfl, ?_⟩
          · rw [answers, List.length_append]
            omega
          · rw [List.take_length, all]

theorem run_wired {sockfd : Nat} {events : List Event}
    (possible : Along (step nullFind) Possible (established sockfd) events) :
    Alike Wired (run (step nullFind) (established sockfd) events) (run (HttpSession.step nullFind) .new events) :=
  run_alike (fun _ _ _ same allowed => same.step allowed) (established_wired sockfd) possible

/-- In every run that the kernel can make in a process that ignores SIGPIPE, with
any bytes cut in any way and any results of the writes, the connection fails
where the plain server does, and what the kernel took, followed by what waits,
is the plain server's answers. Behind the half-close the kernel has taken some
first answers whole, and takes nothing more. -/
theorem wire_shows (nullFind : NullFind) (sockfd : Nat) (events : List Event)
    (possible : Along (step nullFind) Possible (established sockfd) events) :
    Alike Wired (run (step nullFind) (established sockfd) events) (run (HttpSession.step nullFind) .new events) ∧
      ∀ before after conn final, events = before ++ after →
        run (step nullFind) (established sockfd) before = some conn → halfClosed conn = true →
        run (step nullFind) conn after = some final → final.wire = conn.wire := by
  refine ⟨run_wired possible, ?_⟩
  rintro before after conn final rfl reached closed ran
  obtain ⟨alongBefore, alongAfter⟩ := along_append_iff.mp possible
  exact run_frozen (valid_of_run reached) closed (alongAfter conn reached) ran

/-- A rejection of which ten bytes are taken, a request that is answered while
the rest waits, and the end of the stream. -/
def waitingEvents : List Event :=
  [.readable (.received (ascii "GET /")) (.wrote 10), .readable .failed .failed,
    .readable (.received (ascii " HTTP/1.1\r\nHost: a\r\n\r\n")) .failed, .writable (.wrote 30),
    .readable (.received []) .failed]

/-- The whole rejection is taken at once, and the answer to the request waits for ever. -/
def halfClosedEvents : List Event :=
  [.readable (.received (ascii "GET /")) (.wrote 28),
    .readable (.received (ascii " HTTP/1.1\r\nHost: a\r\n\r\n")) .failed, .writable .failed]

theorem wire_shows_waiting :
    Alike Wired (run (step .returnsLast) (established 5) waitingEvents)
      (run (HttpSession.step .returnsLast) .new waitingEvents) ∧
    ∀ conn final, run (step .returnsLast) (established 5) (halfClosedEvents.take 1) = some conn →
      run (step .returnsLast) conn (halfClosedEvents.drop 1) = some final → final.wire = conn.wire := by
  refine ⟨(wire_shows .returnsLast 5 waitingEvents (by decide +kernel)).1, fun conn final reached ran => ?_⟩
  have closes : (run (step .returnsLast) (established 5) (halfClosedEvents.take 1)).map halfClosed = some true := by
    decide +kernel
  rw [reached, Option.map_some, Option.some.injEq] at closes
  exact (wire_shows .returnsLast 5 halfClosedEvents (by decide +kernel)).2 _ _ conn final rfl reached closes ran

end HttpServer

end NutServer.Net
