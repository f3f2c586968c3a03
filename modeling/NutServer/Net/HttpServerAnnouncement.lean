import NutServer.Base.Numeral
import NutServer.Net.HttpResponseText

/-!
# What a response announces

The response says in its `Connection` header whether the connection will be
closed, and in `Content-Length` how long the body is. `onRequest` shuts the
connection down by the flag that goes with the header, read the other way round.
-/

set_option autoImplicit false

namespace NutServer.Net

open Library Base

def ResponseMessage.header (message : ResponseMessage) (name : Bytes) : Option Bytes := message.headers[name]?

/-- The body has the announced length. -/
def ResponseMessage.Counted (message : ResponseMessage) : Prop :=
  ∃ digits, message.header (ascii "Content-Length") = some digits ∧
    decimalValue digits = some message.body.length

namespace HttpServer

/-- `onRequest` sends a text that reads as the message, and calls `shutdown`
behind it exactly when `closing`. -/
def Responds (request : HttpRequest) (message : ResponseMessage) (closing : Bool) : Prop :=
  ∃ text, render request = .ok text ∧ ResponseMessage.decode text = some message ∧
    ∀ conn result, onRequest conn request result = answer conn text closing result

/-- The fate of the connection is the announced one, and the length of a
response that keeps it open is announced too. -/
def Agrees (request : HttpRequest) : Prop :=
  ∃ message closing, Responds request message closing ∧
    (closing = true ↔ message.header (ascii "Connection") = some (ascii "close")) ∧
    (message.header (ascii "Connection") = some (ascii "Keep-Alive") → message.Counted)

variable {request : HttpRequest}

private theorem responds (request : HttpRequest) :
    Responds request (HttpResponse.new.setResponse request).message
      (!(HttpResponse.new.setResponse request).closeConnection) := by
  obtain ⟨rendered, _⟩ := render_spec request
  exact ⟨_, rendered, HttpResponse.decode_text (HttpResponse.setResponse_wellFormed request),
    fun conn result => onRequest_eq rendered⟩

/-- An unconnected connection shows whether `shutdown` was called. -/
theorem answer_injective {text : Bytes} {first second : Bool}
    (same : ∀ conn result, answer conn text first result = answer conn text second result) : first = second := by
  have shown : ∀ closing, (answer (TcpConnection.new 0) text closing .failed).map
      (fun conn => conn.calls.any Call.isShutdown) = .ok closing := by
    intro closing
    have idle : ((TcpConnection.new 0).call (.send text)).channel.isWriting = false :=
      Channel.isWriting_new 0
    have refused : (TcpConnection.new 0).send text .failed = .ok ((TcpConnection.new 0).call (.send text)) := rfl
    rw [answer, refused]
    cases closing with
    | false => rfl
    | true =>
        show Except.ok ((((TcpConnection.new 0).call (.send text)).shutdown).calls.any Call.isShutdown) = _
        rw [TcpConnection.shutdown, TcpConnection.shutdownInLoop, idle]
        rfl
  have equal := shown first
  rw [same, shown second] at equal
  exact (Except.ok.inj equal).symm

theorem Responds.unique {message other : ResponseMessage} {closing otherClosing : Bool}
    (first : Responds request message closing) (second : Responds request other otherClosing) :
    message = other ∧ closing = otherClosing := by
  obtain ⟨text, rendered, decoded, answers⟩ := first
  obtain ⟨otherText, otherRendered, otherDecoded, otherAnswers⟩ := second
  cases rendered.symm.trans otherRendered
  have same : ∀ conn result, answer conn text closing result = answer conn text otherClosing result :=
    fun conn result => (answers conn result).symm.trans (otherAnswers conn result)
  exact ⟨Option.some.inj (decoded.symm.trans otherDecoded), answer_injective same⟩

private theorem setResponse_close (close : request.getHeaders (ascii "Connection") = ascii "close") :
    let response := HttpResponse.new.setResponse request
    response.closeConnection = true ∧ response.message.header (ascii "Connection") = some (ascii "close") := by
  simp only [HttpResponse.setResponse, if_pos close]
  exact ⟨rfl, Std.ExtTreeMap.getElem?_insert_self⟩

private theorem setResponse_keepAlive (kept : request.getHeaders (ascii "Connection") ≠ ascii "close") :
    let response := HttpResponse.new.setResponse request
    response.closeConnection = false ∧
      response.message.header (ascii "Connection") = some (ascii "Keep-Alive") ∧ response.message.Counted := by
  simp only [HttpResponse.setResponse, if_neg kept]
  refine ⟨rfl, Std.ExtTreeMap.getElem?_insert_self, HttpResponse.toString HttpResponse.greeting.length, ?_, ?_⟩
  · simp only [ResponseMessage.header, HttpResponse.message, HttpResponse.addHeader]
    rw [Std.ExtTreeMap.getElem?_insert, if_neg (by decide), Std.ExtTreeMap.getElem?_insert_self]
    rfl
  · exact decimalValue_decimal HttpResponse.greeting.length

/-- The shutdown follows the responses that do not announce the end. -/
theorem closing_iff (request : HttpRequest) :
    let response := HttpResponse.new.setResponse request
    (!response.closeConnection) = true ↔ response.message.header (ascii "Connection") ≠ some (ascii "close") := by
  by_cases close : request.getHeaders (ascii "Connection") = ascii "close"
  · obtain ⟨flag, header⟩ := setResponse_close close
    simp only [flag, header]
    decide
  · obtain ⟨flag, header, _⟩ := setResponse_keepAlive close
    simp only [flag, header]
    decide

private theorem not_agrees (request : HttpRequest) : ¬ Agrees request := by
  intro agrees
  obtain ⟨message, closing, answered, fate, _⟩ := agrees
  obtain ⟨rfl, rfl⟩ := answered.unique (responds request)
  exact (iff_not_self (fate.symm.trans (closing_iff request))).elim

/-- The two senses of the decision: a response that announces the end of the
connection leaves it open, and one that announces to keep it open, with the
right length, is followed by the shutdown. No request is answered otherwise. -/
theorem announcement_inverted (request : HttpRequest) :
    ¬ Agrees request ∧
    ∃ message closing, Responds request message closing ∧
      (closing = true ↔ message.header (ascii "Connection") ≠ some (ascii "close")) ∧
      (message.header (ascii "Connection") = some (ascii "Keep-Alive") → message.Counted) := by
  refine ⟨not_agrees request, _, _, responds request, closing_iff request, fun keepAlive => ?_⟩
  by_cases close : request.getHeaders (ascii "Connection") = ascii "close"
  · rw [(setResponse_close close).2] at keepAlive
    exact absurd (Option.some.inj keepAlive) (by decide)
  · exact (setResponse_keepAlive close).2.2

/-- `GET / HTTP/1.1` with `Host: a` is promised a connection that is then shut down. -/
theorem keepAlive_shut_down :
    ∃ buf request, Buffer.fresh.append (ascii "GET / HTTP/1.1\r\nHost: a\r\n\r\n") = .ok buf ∧
      HttpRequest.new.parseRequest .undefined buf = .ok (request, true) ∧ ¬ Agrees request := by
  have completes : (do
      let buf ← Buffer.fresh.append (ascii "GET / HTTP/1.1\r\nHost: a\r\n\r\n")
      return (← HttpRequest.new.parseRequest .undefined buf).2) = (.ok true : Outcome Bool) := by decide +kernel
  obtain ⟨buf, appended, parsed⟩ := Outcome.bind_eq_ok_iff.mp completes
  obtain ⟨⟨request, complete⟩, parsed, finished⟩ := Outcome.bind_eq_ok_iff.mp parsed
  cases finished
  exact ⟨buf, request, appended, parsed, not_agrees request⟩

end HttpServer

end NutServer.Net
