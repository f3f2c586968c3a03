import NutServer.Net.HttpServer
import NutServer.Net.TcpConnectionProperties

/-! What the callbacks of the HTTP server do to a connection: every message that
is looked at ends in one `send` and at most one `shutdown` behind it. -/

set_option autoImplicit false

namespace NutServer.Net

open Library

namespace Buffer

private theorem readFd_count {buf next : Buffer} {bytes : Bytes} {n : Int}
    (read : buf.readFd (.received bytes) = .ok (next, n)) : n = bytes.length := by
  simp only [readFd] at read
  obtain ⟨cells, _, read⟩ := Outcome.bind_eq_ok_iff.mp read
  split_ifs at read
  · cases read
    rfl
  · obtain ⟨extended, _, read⟩ := Outcome.bind_eq_ok_iff.mp read
    cases read
    rfl

end Buffer

namespace TcpConnection

variable {conn next : TcpConnection} {messageCallback : TcpConnection → Outcome TcpConnection}

theorem handleRead_cases {result : ReadResult} (read : conn.handleRead messageCallback result = .ok next) :
    (result = .failed ∧ next = conn.handleError) ∨
    (result = .received [] ∧ ∃ inputBuffer n, conn.inputBuffer.readFd result = .ok (inputBuffer, n) ∧
      { conn with inputBuffer }.handleClose = .ok next) ∨
    ∃ bytes inputBuffer n, result = .received bytes ∧ bytes ≠ [] ∧
      conn.inputBuffer.readFd result = .ok (inputBuffer, n) ∧
      messageCallback { conn with inputBuffer } = .ok next := by
  obtain ⟨⟨inputBuffer, n⟩, received, continued⟩ := Outcome.bind_eq_ok_iff.mp read
  cases result with
  | failed =>
      cases received
      cases continued
      exact .inl ⟨rfl, rfl⟩
  | received bytes =>
      have count := Buffer.readFd_count received
      cases bytes with
      | nil =>
          subst count
          exact .inr (.inl ⟨rfl, inputBuffer, _, received, continued⟩)
      | cons byte bytes =>
          have positive : 0 < n := by
            rw [count, List.length_cons]
            omega
          refine .inr (.inr ⟨byte :: bytes, inputBuffer, n, rfl, by simp, received, ?_⟩)
          simpa only [if_pos positive] using continued

theorem handleClose_effect (closed : conn.handleClose = .ok next) :
    next.calls = conn.calls ++ [.updateChannel Channel.noneEvent, .closeCallback] ∧
      next.channel.isWriting = false ∧ conn.SameReader next ∧
      next.outputBuffer = conn.outputBuffer := by
  obtain ⟨_, _, closed⟩ := Outcome.bind_eq_ok_iff.mp closed
  cases closed
  exact ⟨by simp [call, disableAll, updateChannel, Channel.disableAll],
    Channel.isWriting_disableAll _, ⟨rfl, rfl, rfl⟩, rfl⟩

end TcpConnection

namespace HttpServer

variable {conn next : TcpConnection} {nullFind : NullFind} {result : WriteResult}

theorem connectDestroyed_effect (destroyed : conn.connectDestroyed onConnection = .ok next) :
    next.calls = conn.calls ++ [.updateChannel Channel.noneEvent, .removeChannel] ∧
      next.channel.isWriting = false ∧ next.state = .disconnected ∧
      next.outputBuffer = conn.outputBuffer ∧ next.inputBuffer = conn.inputBuffer ∧
      next.request = conn.request := by
  obtain ⟨_, _, destroyed⟩ := Outcome.bind_eq_ok_iff.mp destroyed
  have unconnected : ({ conn with state := .disconnected } : TcpConnection).disableAll.connected = false := rfl
  simp only [onConnection, unconnected] at destroyed
  cases destroyed
  exact ⟨by simp [TcpConnection.call, TcpConnection.disableAll, TcpConnection.updateChannel, Channel.disableAll],
    Channel.isWriting_disableAll _, rfl, rfl, rfl, rfl⟩

def answer (conn : TcpConnection) (text : Bytes) (closing : Bool) (result : WriteResult) :
    Outcome TcpConnection := do
  let sent ← conn.send text result
  return if closing then sent.shutdown else sent

theorem rejectMessage_eq : rejectMessage conn result = answer conn badRequest true result := rfl

theorem onRequest_eq {request : HttpRequest} {text : Bytes} (rendered : render request = .ok text) :
    onRequest conn request result =
      answer conn text (!(HttpResponse.new.setResponse request).closeConnection) result := by
  rw [onRequest, rendered, Outcome.ok_bind, answer]
  cases (HttpResponse.new.setResponse request).closeConnection <;> rfl

/-- A send writes or queues the text when the connection is in state
`Connected`, and is dropped otherwise. -/
theorem send_spec (valid : conn.outputBuffer.Valid) (text : Bytes) (result : WriteResult) :
    ∃ next made, conn.send text result = .ok next ∧
      TcpConnection.Wrote (conn.call (.send text)) next made ∧
      (conn.state = .connected → conn.channel.isWriting = false → conn.outputBuffer.readable = [] →
        .write text result ∈ made) ∧
      (conn.state = .connected → text ≠ [] → next.channel.isWriting = false →
        next.outputBuffer.readable = []) ∧
      (conn.state ≠ .connected → made = [] ∧ next.channel = conn.channel) := by
  by_cases connected : conn.state = .connected
  · obtain ⟨next, made, sent, wrote, _, direct, drained⟩ :=
      TcpConnection.sendInLoop_spec (conn.call (.send text)) valid text result
    exact ⟨next, made, (if_pos connected).trans sent, wrote, fun _ => direct, fun _ => drained,
      fun other => absurd connected other⟩
  · exact ⟨conn.call (.send text), [], if_neg connected, TcpConnection.Wrote.refl _ valid,
      fun other => absurd other connected, fun other => absurd other connected, fun _ => ⟨rfl, rfl⟩⟩

/-- What an answer records: the send, the calls of the output side, and last
the shutdown, which waits for the interest in writing to end. -/
structure Answered (conn next : TcpConnection) (text : Bytes) (result : WriteResult)
    (made last : List Call) : Prop where
  same : conn.SameReader next
  valid : next.outputBuffer.Valid
  calls : next.calls = conn.calls ++ (.send text :: made ++ last)
  output : ∀ entry ∈ made, entry.isOutput = true
  last : last = [] ∨ ∃ pending, last = [.shutdown pending] ∧ next.channel.isWriting = false
  direct : conn.state = .connected → conn.channel.isWriting = false →
    conn.outputBuffer.readable = [] → .write text result ∈ made
  drained : conn.state = .connected → text ≠ [] → next.channel.isWriting = false →
    next.outputBuffer.readable = []
  refused : conn.state ≠ .connected → made = [] ∧ next.channel = conn.channel

theorem answer_spec (conn : TcpConnection) (valid : conn.outputBuffer.Valid) (text : Bytes)
    (closing : Bool) (result : WriteResult) :
    ∃ next made last, answer conn text closing result = .ok next ∧
      Answered conn next text result made last := by
  obtain ⟨sent, made, sending, wrote, direct, drained, refused⟩ :=
    send_spec valid text result
  have calls : sent.calls = conn.calls ++ (.send text :: made) := by
    rw [wrote.calls]
    simp [TcpConnection.call]
  have same : conn.SameReader sent := ⟨wrote.same.state, wrote.same.request, wrote.same.inputBuffer⟩
  have plain : Answered conn sent text result made [] :=
    ⟨same, wrote.valid, by simp [calls], wrote.output, .inl rfl, direct, drained, refused⟩
  cases closing with
  | false => exact ⟨sent, made, [], by rw [answer, sending]; rfl, plain⟩
  | true =>
      have answered : answer conn text true result = .ok sent.shutdown := by
        rw [answer, sending]
        rfl
      cases writing : sent.channel.isWriting with
      | true =>
          refine ⟨sent, made, [], ?_, plain⟩
          rw [answered, TcpConnection.shutdown, TcpConnection.shutdownInLoop_of_writing writing]
      | false =>
          refine ⟨sent.shutdown, made, [.shutdown sent.outputBuffer.readableBytes], answered, ?_⟩
          rw [TcpConnection.shutdown, TcpConnection.shutdownInLoop_of_quiet writing]
          exact ⟨⟨same.state, same.request, same.inputBuffer⟩, wrote.valid,
            by simp [TcpConnection.call, calls], wrote.output, .inr ⟨_, rfl, writing⟩, direct, drained, refused⟩

theorem parseRequest_complete {request after : HttpRequest} {buf : Buffer} {complete : Bool}
    (parsed : request.parseRequest nullFind buf = .ok (after, complete)) :
    complete = after.getFullReq := by
  obtain ⟨str, _, parsed⟩ := Outcome.bind_eq_ok_iff.mp parsed
  obtain ⟨request', _, parsed⟩ := Outcome.bind_eq_ok_iff.mp parsed
  cases parsed
  rfl

/-- A message is answered once: with the response to the request when that is
complete, and with the rejection otherwise. -/
theorem onMessage_eq (valid : conn.outputBuffer.Valid) {request : HttpRequest} {complete : Bool}
    (parsed : conn.request.parseRequest nullFind conn.inputBuffer = .ok (request, complete)) :
    onMessage nullFind result conn =
      if complete then onRequest (conn.setReq request) request result
      else rejectMessage (conn.setReq request) result := by
  have same := parseRequest_complete parsed
  rw [onMessage, parsed, Outcome.ok_bind]
  cases complete with
  | true =>
      have full : (conn.setReq request).request.getFullReq = true := same.symm
      exact if_pos full
  | false =>
      obtain ⟨next, made, last, answered, after⟩ :=
        answer_spec (conn.setReq request) valid badRequest true result
      have partly : next.request.getFullReq = false := by
        rw [after.same.request]
        exact same.symm
      rw [← rejectMessage_eq] at answered
      simp [answered, partly, pure, Except.pure]

end HttpServer

namespace HttpResponse

private theorem appendAll_spec {output : Buffer} (valid : output.Valid) (pieces : List Bytes) :
    ∃ next, pieces.foldlM Buffer.append output = .ok next ∧ next.Valid ∧
      next.readable = output.readable ++ pieces.flatten := by
  induction pieces generalizing output with
  | nil => exact ⟨output, rfl, valid, by simp⟩
  | cons piece pieces ih =>
      obtain ⟨middle, appended, middleValid, shown⟩ := Buffer.append_spec valid piece
      obtain ⟨next, folded, nextValid, shownRest⟩ := ih middleValid
      refine ⟨next, ?_, nextValid, by simp [shownRest, shown]⟩
      rw [List.foldlM_cons, appended, Outcome.ok_bind, folded]

theorem appendToBuffer_spec {output : Buffer} (valid : output.Valid) (response : HttpResponse) :
    ∃ next, response.appendToBuffer output = .ok next ∧ next.Valid ∧
      next.readable = output.readable ++ response.pieces.flatten :=
  appendAll_spec valid response.pieces

end HttpResponse

namespace HttpServer

variable {conn next : TcpConnection} {nullFind : NullFind} {result : WriteResult}

theorem render_spec (request : HttpRequest) :
    let text := (HttpResponse.new.setResponse request).pieces.flatten
    render request = .ok text ∧ text ≠ [] := by
  obtain ⟨buf, appended, valid, shown⟩ :=
    HttpResponse.appendToBuffer_spec Buffer.fresh_valid (HttpResponse.new.setResponse request)
  rw [Buffer.fresh_readable, List.nil_append] at shown
  constructor
  · rw [render, appended, Outcome.ok_bind, Buffer.retrieveAsString_spec valid, shown]
    rfl
  · simp [HttpResponse.pieces, Buffer.kCRLF]

theorem onMessage_cases (valid : conn.outputBuffer.Valid)
    (handled : onMessage nullFind result conn = .ok next) :
    ∃ request complete text closing,
      conn.request.parseRequest nullFind conn.inputBuffer = .ok (request, complete) ∧
      text ≠ [] ∧ answer (conn.setReq request) text closing result = .ok next := by
  obtain ⟨⟨request, complete⟩, parsed, _⟩ := Outcome.bind_eq_ok_iff.mp handled
  rw [onMessage_eq valid parsed] at handled
  cases complete with
  | false => exact ⟨request, false, badRequest, true, parsed, by decide, handled⟩
  | true =>
      obtain ⟨rendered, nonempty⟩ := render_spec request
      exact ⟨request, true, _, _, parsed, nonempty, (onRequest_eq rendered).symm.trans handled⟩

theorem readable_cases {read : ReadResult} (valid : conn.outputBuffer.Valid)
    (handled : handle nullFind conn (.readable read result) = .ok next) :
    (read = .failed ∧ next = conn.handleError) ∨
    (read = .received [] ∧ ∃ inputBuffer n, conn.inputBuffer.readFd read = .ok (inputBuffer, n) ∧
      { conn with inputBuffer }.handleClose = .ok next) ∨
    ∃ bytes inputBuffer n request complete text made last,
      read = .received bytes ∧ bytes ≠ [] ∧ conn.inputBuffer.readFd read = .ok (inputBuffer, n) ∧
      conn.request.parseRequest nullFind inputBuffer = .ok (request, complete) ∧ text ≠ [] ∧
      Answered ({ conn with inputBuffer }.setReq request) next text result made last := by
  rcases TcpConnection.handleRead_cases handled with
    failed | closed | ⟨bytes, inputBuffer, n, received, some, filled, message⟩
  · exact .inl failed
  · exact .inr (.inl closed)
  · have validFilled : ({ conn with inputBuffer } : TcpConnection).outputBuffer.Valid := valid
    obtain ⟨request, complete, text, closing, parsed, nonempty, answered⟩ :=
      onMessage_cases validFilled message
    obtain ⟨other, made, last, same, after⟩ :=
      answer_spec ({ conn with inputBuffer }.setReq request) valid text closing result
    cases answered.symm.trans same
    exact .inr (.inr ⟨bytes, inputBuffer, n, request, complete, text, made, last, received, some,
      filled, parsed, nonempty, after⟩)

end HttpServer

end NutServer.Net
