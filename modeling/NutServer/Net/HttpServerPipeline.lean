import NutServer.Library.Machine
import NutServer.Net.HttpRequestProperties
import NutServer.Net.HttpServerProperties
import NutServer.Net.RequestText

/-!
# Several requests on one connection

No callback of the server takes bytes out of the input buffer, and the parsed
request stays complete. The bytes of answered requests are kept, and later
messages are answered from the first request.
-/

set_option autoImplicit false

namespace NutServer.Net

open Library

namespace Buffer

variable {buf next : Buffer} {bytes : Bytes} {n : Int}

private theorem readFd_returned (valid : buf.Valid) (read : buf.readFd (.received bytes) = .ok (next, n)) :
    next.Valid ∧ next.readable = buf.readable ++ bytes := by
  by_cases fits : bytes.length ≤ buf.writableBytes + extrabufSize
  · obtain ⟨other, same, otherValid, shown⟩ := readFd_spec valid fits
    cases read.symm.trans same
    exact ⟨otherValid, shown⟩
  · obtain ⟨cells, _, read⟩ := Outcome.bind_eq_ok_iff.mp read
    rw [if_neg (by omega), if_neg (by omega)] at read
    cases read

end Buffer

namespace HttpServer

def Event.received : Event → Bytes
  | .readable (.received bytes) _ => bytes
  | _ => []

def sent (calls : List Call) : List Bytes :=
  calls.filterMap fun
    | .send messages => some messages
    | _ => none

/-- Requests that arrive in one message, the result of writing the answer, and
the writable events before the next message. -/
structure Delivery where
  requests : List RequestText
  answer : WriteResult
  drains : List WriteResult

def Delivery.events (delivery : Delivery) : List Event :=
  .readable (.received (delivery.requests.flatMap RequestText.bytes)) delivery.answer ::
    delivery.drains.map .writable

def requestOf (text : RequestText) : HttpRequest where
  reqParseState := .parseReqFinished
  lineParseState := .parseLineFinished
  method := some text.method
  uri := text.uri
  version := text.version
  requestHeaders := HttpRequest.enterAll ∅ (text.fields.map fun field => (field.name, field.value))

/-- The 200 responses to the delivered requests, in order. -/
def responses (deliveries : List Delivery) : List Bytes :=
  (deliveries.flatMap Delivery.requests).map fun text =>
    (HttpResponse.new.setResponse (requestOf text)).pieces.flatten

/-- Each request is answered once, from its own data, and leaves no bytes. -/
def OneResponseEach (nullFind : NullFind) (sockfd : Nat) (deliveries : List Delivery) : Prop :=
  ∃ final, run (step nullFind) (established sockfd) (deliveries.flatMap Delivery.events) = some final ∧
    sent final.calls = responses deliveries ∧ final.inputBuffer.readable = []

section Step

variable {conn next : TcpConnection} {nullFind : NullFind} {event : Event}

structure BuffersValid (conn : TcpConnection) : Prop where
  input : conn.inputBuffer.Valid
  output : conn.outputBuffer.Valid

private theorem step_keeps_input (valid : BuffersValid conn) (stepped : step nullFind conn event = some next) :
    BuffersValid next ∧ next.inputBuffer.readable = conn.inputBuffer.readable ++ event.received := by
  have handled := Outcome.toOption_eq_some_iff.mp stepped
  cases event with
  | writable result =>
      obtain ⟨made, wrote, _⟩ := TcpConnection.handleWrite_wrote valid.output handled
      have kept := wrote.same.inputBuffer
      exact ⟨⟨kept ▸ valid.input, wrote.valid⟩, by simp [kept, Event.received]⟩
  | destroyed =>
      obtain ⟨_, _, _, output, input, _⟩ := connectDestroyed_effect handled
      exact ⟨⟨input ▸ valid.input, output ▸ valid.output⟩, by simp [input, Event.received]⟩
  | readable read answer =>
      rcases readable_cases valid.output handled with ⟨rfl, rfl⟩ | ⟨rfl, inputBuffer, n, filled, closed⟩ |
        ⟨bytes, inputBuffer, n, request, _, text, made, last, rfl, _, filled, _, _, answered⟩
      · exact ⟨⟨valid.input, valid.output⟩, (List.append_nil _).symm⟩
      · obtain ⟨_, _, same, output⟩ := TcpConnection.handleClose_effect closed
        obtain ⟨inputValid, shown⟩ := Buffer.readFd_returned valid.input filled
        have kept := same.inputBuffer
        exact ⟨⟨kept ▸ inputValid, output ▸ valid.output⟩, by rw [kept]; exact shown⟩
      · obtain ⟨inputValid, shown⟩ := Buffer.readFd_returned valid.input filled
        have kept := answered.same.inputBuffer
        exact ⟨⟨kept ▸ inputValid, answered.valid⟩, by rw [kept]; exact shown⟩

theorem established_valid (sockfd : Nat) : BuffersValid (established sockfd) :=
  ⟨Buffer.fresh_valid, Buffer.fresh_valid⟩

private theorem run_keeps_input {sockfd : Nat} {events : List Event} {final : TcpConnection}
    (ran : run (step nullFind) (established sockfd) events = some final) :
    final.inputBuffer.readable = events.flatMap Event.received := by
  have kept := run_history (fun past conn =>
      BuffersValid conn ∧ conn.inputBuffer.readable = past.flatMap Event.received)
    ⟨established_valid sockfd, Buffer.fresh_readable⟩ ?_ ran
  · exact kept.2
  · rintro past conn event next ⟨valid, shown⟩ stepped
    obtain ⟨nextValid, nextShown⟩ := step_keeps_input valid stepped
    exact ⟨nextValid, by simp [nextShown, shown]⟩

def Event.isMessage : Event → Bool
  | .readable (.received bytes) _ => !bytes.isEmpty
  | _ => false

private theorem sent_append {first second : List Call} : sent (first ++ second) = sent first ++ sent second :=
  List.filterMap_append

private theorem sent_of_output {made : List Call} (output : ∀ entry ∈ made, entry.isOutput = true) :
    sent made = [] := by
  refine List.filterMap_eq_nil_iff.mpr fun entry member => ?_
  have isOutput := output entry member
  cases entry <;> first | rfl | cases isOutput

theorem Answered.sent {text : Bytes} {result : WriteResult} {made last : List Call}
    (answered : Answered conn next text result made last) :
    sent next.calls = sent conn.calls ++ [text] := by
  have tail : HttpServer.sent last = [] := by
    rcases answered.last with rfl | ⟨_, rfl, _⟩ <;> rfl
  have middle : HttpServer.sent (.send text :: made) = [text] := by
    rw [← List.singleton_append, sent_append, sent_of_output answered.output]
    rfl
  rw [answered.calls, sent_append, sent_append, middle, tail, List.append_nil]

private theorem onMessage_finished {result : WriteResult} (valid : BuffersValid conn)
    (finished : conn.request.reqParseState = .parseReqFinished)
    (handled : onMessage nullFind result conn = .ok next) :
    ∃ made last, Answered conn next (HttpResponse.new.setResponse conn.request).pieces.flatten result made last := by
  have parsed : conn.request.parseRequest nullFind conn.inputBuffer = .ok (conn.request, true) := by
    rw [HttpRequest.parseRequest_eq valid.input, HttpRequest.parseText_finished finished]
  rw [onMessage_eq valid.output parsed, if_pos rfl, onRequest_eq (render_spec conn.request).1] at handled
  obtain ⟨other, made, last, same, answered⟩ := answer_spec
    (conn.setReq conn.request) valid.output _ _ result
  cases handled.symm.trans same
  exact ⟨made, last, answered⟩

private theorem step_finished (valid : BuffersValid conn)
    (finished : conn.request.reqParseState = .parseReqFinished)
    (stepped : step nullFind conn event = some next) :
    next.request = conn.request ∧ sent next.calls = sent conn.calls ++
      if event.isMessage then [(HttpResponse.new.setResponse conn.request).pieces.flatten] else [] := by
  have handled := Outcome.toOption_eq_some_iff.mp stepped
  cases event with
  | writable result =>
      obtain ⟨made, wrote, _⟩ := TcpConnection.handleWrite_wrote valid.output handled
      refine ⟨wrote.same.request, ?_⟩
      rw [wrote.calls, sent_append, sent_of_output wrote.output]
      rfl
  | destroyed =>
      obtain ⟨calls, _, _, _, _, request⟩ := connectDestroyed_effect handled
      exact ⟨request, by simp [calls, sent, Event.isMessage]⟩
  | readable read answer =>
      rcases TcpConnection.handleRead_cases handled with ⟨rfl, rfl⟩ |
        ⟨rfl, inputBuffer, n, _, closed⟩ | ⟨bytes, inputBuffer, n, rfl, some, filled, message⟩
      · exact ⟨rfl, by simp [TcpConnection.handleError, TcpConnection.call, sent, Event.isMessage]⟩
      · obtain ⟨calls, _, same, _⟩ := TcpConnection.handleClose_effect closed
        exact ⟨same.request, by simp [calls, sent, Event.isMessage]⟩
      · obtain ⟨inputValid, _⟩ := Buffer.readFd_returned valid.input filled
        have validFilled : BuffersValid { conn with inputBuffer } := ⟨inputValid, valid.output⟩
        obtain ⟨made, last, answered⟩ := onMessage_finished validFilled finished message
        have isMessage : (Event.readable (.received bytes) answer).isMessage = true := by
          simpa [Event.isMessage] using some
        rw [isMessage, if_pos rfl]
        exact ⟨answered.same.request, answered.sent⟩

/-- Once a request is complete, every later message of the connection is
answered with the response to that request. -/
theorem run_finished {events : List Event} (valid : BuffersValid conn)
    (finished : conn.request.reqParseState = .parseReqFinished)
    (ran : run (step nullFind) conn events = some next) :
    sent next.calls = sent conn.calls ++ List.replicate (events.countP Event.isMessage)
      (HttpResponse.new.setResponse conn.request).pieces.flatten := by
  have kept := run_history (fun past middle => BuffersValid middle ∧
      middle.request = conn.request ∧ sent middle.calls = sent conn.calls ++
        List.replicate (past.countP Event.isMessage)
          (HttpResponse.new.setResponse conn.request).pieces.flatten)
    ⟨valid, rfl, by simp⟩ ?_ ran
  · exact kept.2.2
  · rintro past middle event after ⟨middleValid, request, answers⟩ stepped
    obtain ⟨same, more⟩ := step_finished middleValid (request ▸ finished) stepped
    refine ⟨(step_keeps_input middleValid stepped).1, same.trans request, ?_⟩
    rw [more, answers, request, List.countP_append, List.append_assoc]
    cases isMessage : event.isMessage <;> simp [isMessage, List.replicate_add]

end Step

/-- Whatever requests arrive, their bytes stay. -/
theorem not_oneResponseEach (nullFind : NullFind) (sockfd : Nat) (deliveries : List Delivery)
    (some : deliveries.flatMap Delivery.requests ≠ []) : ¬ OneResponseEach nullFind sockfd deliveries := by
  rintro ⟨final, ran, _, empty⟩
  rw [run_keeps_input ran, List.flatMap_eq_nil_iff] at empty
  obtain ⟨text, requested⟩ := List.exists_mem_of_ne_nil _ some
  obtain ⟨delivery, delivered, requested⟩ := List.mem_flatMap.mp requested
  have received := empty (.readable (.received (delivery.requests.flatMap RequestText.bytes)) delivery.answer)
    (List.mem_flatMap.mpr ⟨delivery, delivered, List.mem_cons_self⟩)
  have nothing := List.flatMap_eq_nil_iff.mp received text requested
  simp [RequestText.bytes, Buffer.kCRLF] at nothing

theorem not_oneResponseEach_single :
    ¬ OneResponseEach .undefined 5 [⟨[RequestText.hostRequest], .wrote 153, []⟩] :=
  not_oneResponseEach .undefined 5 _ (by simp)

/-- An HTTP/1.0 request behind an HTTP/1.1 request is answered as the first. -/
theorem second_answered_as_first :
    ¬ OneResponseEach .undefined 5 [⟨[RequestText.hostRequest], .wrote 153, []⟩,
      ⟨[{ RequestText.hostRequest with version := .http10, versioned := by decide }], .wrote 153, []⟩] := by
  rintro ⟨final, ran, answers, _⟩
  have differ : (run (step .undefined) (established 5) (List.flatMap Delivery.events
      [⟨[RequestText.hostRequest], .wrote 153, []⟩,
        ⟨[{ RequestText.hostRequest with version := .http10, versioned := by decide }], .wrote 153, []⟩])).map
      (fun final => decide (sent final.calls = responses [⟨[RequestText.hostRequest], .wrote 153, []⟩,
        ⟨[{ RequestText.hostRequest with version := .http10, versioned := by decide }], .wrote 153, []⟩])) =
      some false := by decide +kernel
  rw [ran, Option.map_some, Option.some.injEq] at differ
  exact of_decide_eq_false differ answers

end HttpServer

end NutServer.Net
