import NutServer.Net.HttpRequestCuts
import NutServer.Net.HttpServerWire

/-! A request that arrives in pieces: every piece but the last is rejected, and
behind the last one comes the answer to the whole. -/

set_option autoImplicit false

namespace NutServer.Net

open Library HttpRequest

section Lookup

variable {text : RequestText} {request : HttpRequest} {before : Nat} {key : Bytes}

/-- The fields of the text give every key its value, if nothing else was entered
under it before. -/
theorem getElem?_enterAll_fields {headers : HeaderMap} (entered : key ∉ names text → headers[key]? = none) :
    (enterAll headers (headerFields text.headerSection text.fieldLines))[key]? = (wholeHeaders text)[key]? := by
  by_cases known : key ∈ names text
  · exact getElem?_enterAll_of_mem (by rwa [names_wholeHeaders])
  · have absent : key ∉ (headerFields text.headerSection text.fieldLines).map Prod.fst := by
      rwa [names_wholeHeaders]
    rw [wholeHeaders, getElem?_enterAll_of_notMem absent, getElem?_enterAll_of_notMem absent, entered known,
      Std.ExtTreeMap.getElem?_empty]

private theorem parseText_lookup (nullFind : NullFind) (filled : text.fields ≠ []) (progress : Progress text before request) :
    ∃ next, parseText nullFind request text.bytes = .ok (next, true) ∧ next.version = text.version ∧
      ∀ key, key ≠ fieldName text.requestLine → next.requestHeaders[key]? = (wholeHeaders text)[key]? := by
  have someLines : text.fieldLines ≠ [] := by simpa [RequestText.fieldLines] using filled
  have long := text.fieldLines_long
  have longTail := fun line (member : line ∈ text.fieldLines.tail) => long line (List.mem_of_mem_tail member)
  have cut : CutInto text.headerSection (text.fieldLines ++ [[]]) [] := by
    have lines : CutInto (joinLines (text.fieldLines ++ [[]]) ++ []) (text.fieldLines ++ [[]]) [] :=
      cutInto_joinLines (fun line member => text.lines_inline line (List.mem_cons_of_mem _ member)) List.not_mem_nil
    rwa [List.append_nil] at lines
  have first := searchFor_inline text.headerSection text.requestLine_inline
  rw [RequestText.bytes]
  by_cases earlier : before < text.requestLine.length + 2
  · rw [Progress, if_pos earlier] at progress
    subst progress
    obtain ⟨_, _, _, version, headers⟩ := lineDone_requestLine text
    have parsed := parseText_line nullFind .new rfl first cut fun _ => text.unknownWord_requestLine
    have accepted : (HttpRequest.new.lineOutcome text.requestLine).2 = true := by
      rw [text.lineOutcome_requestLine]
    rw [if_pos accepted, sectionEnds_empty someLines] at parsed
    obtain ⟨_, _, sameVersion, entered⟩ := headersDone_frame
      (HttpRequest.new.lineOutcome text.requestLine).1.lineDone text.headerSection (text.fieldLines ++ [[]])
    refine ⟨_, parsed, sameVersion.trans version, fun key _ => ?_⟩
    rw [entered, headers, headerFields_empty _ someLines longTail, wholeHeaders]
  · rw [Progress, if_neg earlier] at progress
    have parsed := parseText_headers nullFind progress.state (CutInto.line first cut)
    have ends : sectionEnds (text.requestLine :: (text.fieldLines ++ [[]])) = true :=
      sectionEnds_empty (List.cons_ne_nil text.requestLine text.fieldLines)
    rw [ends] at parsed
    obtain ⟨_, _, sameVersion, entered⟩ := headersDone_frame request
      (text.requestLine ++ Buffer.kCRLF ++ text.headerSection) (text.requestLine :: (text.fieldLines ++ [[]]))
    refine ⟨_, parsed, sameVersion.trans progress.version, fun key other => ?_⟩
    have goesOn : endsAt (text.fieldLines ++ [[]]) = false := by
      obtain ⟨line, rest, lines⟩ := List.exists_cons_of_ne_nil someLines
      have here := long line (lines ▸ List.mem_cons_self)
      simp [lines, endsAt, here]
    have behind : (text.requestLine ++ Buffer.kCRLF ++ text.headerSection).drop
        (text.requestLine.length + 2) = text.headerSection :=
      List.drop_left' (by simp [Buffer.kCRLF])
    rw [entered, headerFields, goesOn, behind, headerFields_empty _ someLines longTail]
    simp only [Bool.false_eq_true, if_false, enterAll_cons]
    refine getElem?_enterAll_fields fun absent => ?_
    rw [Std.ExtTreeMap.getElem?_insert, if_neg, progress.entered key other absent]
    rw [Std.LawfulEqCmp.compare_eq_iff_eq]
    exact Ne.symm other

private theorem progress_new (text : RequestText) : Progress text 0 .new := by
  rw [Progress, if_pos (by omega)]

/-- A request line is not taken for the header that decides about the connection. -/
theorem connection_ne_fieldName (text : RequestText) : ascii "Connection" ≠ fieldName text.requestLine := by
  have begins : ∃ first rest, text.requestLine = first :: rest ∧ first ≠ 58 ∧ first ≠ 67 := by
    rw [text.requestLine_eq]
    cases text.method <;> exact ⟨_, _, rfl, by decide, by decide⟩
  obtain ⟨first, rest, line, uncoloned, other⟩ := begins
  have head : (fieldName text.requestLine).head? = some first := by
    rw [fieldName, colonOn, line, List.idxOf?_cons, if_neg (by simpa using uncoloned)]
    cases rest.idxOf? 58 <;> rfl
  intro same
  rw [← same] at head
  exact other (Option.some.inj head).symm

/-- The answer depends on the version and on one header. -/
theorem response_eq {other : HttpRequest} (version : request.version = other.version)
    (connection : request.requestHeaders[ascii "Connection"]? = other.requestHeaders[ascii "Connection"]?) :
    HttpSession.response request = HttpSession.response other := by
  have same : request.getHeaders (ascii "Connection") = other.getHeaders (ascii "Connection") := by
    rw [getHeaders, getHeaders, connection]
  simp only [HttpSession.response, HttpResponse.setResponse, version, same]

end Lookup

namespace HttpResponse

private theorem setResponse_line (request : HttpRequest) :
    (new.setResponse request).line = versionText request.version ++ ascii "200 OK" := by
  unfold setResponse
  split_ifs <;> rfl

private theorem setResponse_body (request : HttpRequest) : (new.setResponse request).body = greeting := by
  unfold setResponse
  split_ifs <;> rfl

end HttpResponse

namespace HttpServer

def Event.message? : Event → Option Bytes
  | .readable (.received bytes) _ => some bytes
  | .readable .failed _ | .writable _ | .destroyed => none

/-- The reads of a run. -/
def messages (events : List Event) : List Bytes := events.filterMap Event.message?

variable {nullFind : NullFind} {text : RequestText} {session : HttpSession} {events : List Event}

/-- Between messages the plain server does nothing. -/
theorem step_quiet {event : Event} (quiet : event.message? = none) (lasting : event ≠ .destroyed) :
    session.step nullFind event = some session := by
  cases event with
  | readable read answer =>
      cases read with
      | failed => rfl
      | received bytes => cases quiet
  | writable result => rfl
  | destroyed => exact absurd rfl lasting

private theorem run_quiet (quiet : messages events = []) (lasting : .destroyed ∉ events) :
    run (HttpSession.step nullFind) session events = some session := by
  induction events with
  | nil => rfl
  | cons event rest ih =>
      have none : event.message? = none ∧ messages rest = [] := by
        cases here : event.message? with
        | none => exact ⟨rfl, (List.filterMap_cons_none here).symm.trans quiet⟩
        | some bytes =>
            rw [messages, List.filterMap_cons_some here] at quiet
            cases quiet
      rw [List.mem_cons, not_or] at lasting
      rw [run_cons, step_quiet none.1 (Ne.symm lasting.1), Option.bind_some]
      exact ih none.2 lasting.2

private theorem step_message {bytes : Bytes} {answer : WriteResult} {request : HttpRequest} {complete : Bool}
    (nonempty : bytes ≠ []) (connected : session.connected = true)
    (parsed : parseText nullFind session.request (session.received ++ bytes) = .ok (request, complete)) :
    session.step nullFind (.readable (.received bytes) answer) = some { session with
      request
      received := session.received ++ bytes
      answers := session.answers ++ [HttpSession.answerTo request complete] } := by
  have handled : session.handle nullFind (.readable (.received bytes) answer) = session.message nullFind bytes :=
    if_neg nonempty
  rw [HttpSession.step, handled, HttpSession.message, parsed, Outcome.ok_bind]
  simp only [connected, if_true]
  rfl

/-- From any point of the text on, the pieces that are still to come are
rejected but for the last one, which is answered as the whole. -/
theorem run_pieces {whole : HttpRequest} (parsed : parseText nullFind .new text.bytes = .ok (whole, true))
    (filled : text.fields ≠ []) (connected : session.connected = true) (lasting : .destroyed ∉ events)
    (nonempty : [] ∉ messages events) (remain : messages events ≠ [])
    (split : session.received ++ (messages events).flatten = text.bytes)
    (progress : Progress text session.received.length session.request)
    (found : ∀ received ∈ cuts session.received.length (messages events),
      received < text.requestLine.length + 2 → nullFind = .returnsLast) :
    ∃ final, run (HttpSession.step nullFind) session events = some final ∧
      final.answers = session.answers ++ (List.replicate ((messages events).length - 1) badRequest ++
        [(HttpSession.response whole).text]) := by
  induction events generalizing session with
  | nil => exact absurd rfl remain
  | cons event rest ih =>
      rw [List.mem_cons, not_or] at lasting
      cases here : event.message? with
      | none =>
          have same : messages (event :: rest) = messages rest := List.filterMap_cons_none here
          rw [same] at nonempty remain split found ⊢
          obtain ⟨final, ran, answers⟩ := ih connected lasting.2 nonempty remain split progress found
          exact ⟨final, by rw [run_cons, step_quiet here (Ne.symm lasting.1), Option.bind_some, ran], answers⟩
      | some bytes =>
          have front : messages (event :: rest) = bytes :: messages rest := List.filterMap_cons_some here
          obtain ⟨answer, isRead⟩ : ∃ answer, event = .readable (.received bytes) answer := by
            cases event with
            | readable read answer =>
                cases read with
                | failed => cases here
                | received other =>
                    cases here
                    exact ⟨answer, rfl⟩
            | writable result => cases here
            | destroyed => cases here
          subst isRead
          rw [front, List.mem_cons, not_or] at nonempty
          rw [front, List.flatten_cons, ← List.append_assoc] at split
          have hasBytes := Ne.symm nonempty.1
          by_cases last : messages rest = []
          · rw [last, List.flatten_nil, List.append_nil] at split
            obtain ⟨request, parsedHere, version, headers⟩ := parseText_lookup nullFind filled progress
            obtain ⟨other, parsedOther, versionOther, headersOther⟩ := parseText_lookup nullFind filled (progress_new text)
            cases parsed.symm.trans parsedOther
            have same : HttpSession.response request = HttpSession.response whole :=
              response_eq (version.trans versionOther.symm)
                ((headers _ (connection_ne_fieldName text)).trans (headersOther _ (connection_ne_fieldName text)).symm)
            rw [← split] at parsedHere
            let after : HttpSession := { session with
              request
              received := session.received ++ bytes
              answers := session.answers ++ [HttpSession.answerTo request true] }
            refine ⟨after, ?_, ?_⟩
            · rw [run_cons, step_message hasBytes connected parsedHere, Option.bind_some]
              exact run_quiet last lasting.2
            · rw [front, last, ← same]
              rfl
          · obtain ⟨second, more, others⟩ := List.exists_cons_of_ne_nil last
            have proper : (messages rest).flatten ≠ [] := by
              have secondFilled : second ≠ [] := by
                intro empty
                rw [others, empty] at nonempty
                exact nonempty.2 List.mem_cons_self
              rw [others, List.flatten_cons]
              exact fun empty => secondFilled (List.append_eq_nil_iff.mp empty).1
            have size : (session.received ++ bytes).length = session.received.length + bytes.length := List.length_append
            rw [front, others, cuts, ← others, ← size, List.forall_mem_cons] at found
            obtain ⟨request, parsedHere, progressed⟩ :=
              parseText_prefix split.symm proper progress (by omega) found.1
            let after : HttpSession := { session with
              request
              received := session.received ++ bytes
              answers := session.answers ++ [HttpSession.answerTo request false] }
            have connectedAfter : after.connected = true := connected
            obtain ⟨final, ran, answers⟩ := ih connectedAfter lasting.2 nonempty.2 last split progressed found.2
            refine ⟨final, ?_, ?_⟩
            · rw [run_cons, step_message hasBytes connected parsedHere, Option.bind_some]
              exact ran
            · have count : (messages rest).length = more.length + 1 := by rw [others, List.length_cons]
              rw [answers, front, List.length_cons, count]
              simp [after, HttpSession.answerTo, List.replicate_succ]

private theorem messages_append {first second : List Event} : messages (first ++ second) = messages first ++ messages second :=
  List.filterMap_append

/-- The plain server gives at most one answer to a message, behind those it gave. -/
theorem run_answers {after : HttpSession} (ran : run (HttpSession.step nullFind) session events = some after) :
    session.answers <+: after.answers ∧ after.answers.length ≤ session.answers.length + (messages events).length := by
  refine run_history (fun past after => session.answers <+: after.answers ∧
    after.answers.length ≤ session.answers.length + (messages past).length) ⟨List.prefix_rfl, Nat.le_add_right _ _⟩ ?_ ran
  rintro past before event after ⟨behind, fewer⟩ stepped
  obtain ⟨_, given, answers, count⟩ := step_answers stepped
  have single : given.length ≤ (messages [event]).length := by
    rw [count]
    split_ifs with answered
    · match event, answered.2 with
      | .readable (.received bytes) _, _ => exact le_rfl
    · exact Nat.zero_le _
  refine ⟨answers ▸ behind.trans (List.prefix_append _ _), ?_⟩
  rw [answers, messages_append, List.length_append, List.length_append]
  omega

private theorem run_connected {after : HttpSession} (lasting : .destroyed ∉ events) (connected : session.connected = true)
    (ran : run (HttpSession.step nullFind) session events = some after) : after.connected = true := by
  refine run_preserves_of_mem (fun session => session.connected = true) connected ?_ ran
  intro before event member next up stepped
  exact (step_answers stepped).1.mpr ⟨up, fun destroyed => lasting (destroyed ▸ member)⟩

/-- Where the first answers are all the same, so are those that a half-closed
connection sent before a message that came too late. -/
theorem sent_before_late {sockfd count : Nat} {last : Bytes} {before after : List Event} {event : Event}
    {middle : TcpConnection} (possible : Along (step nullFind) Possible (established sockfd) (before ++ event :: after))
    (reached : run (step nullFind) (established sockfd) before = some middle) (late : MessageAfterHalfClose middle event)
    (size : (messages (before ++ event :: after)).length = count + 1)
    (ran : run (HttpSession.step nullFind) .new (before ++ event :: after) = some session)
    (answers : session.answers = List.replicate count badRequest ++ [last]) :
    halfClosed middle = true ∧ ∃ sent, 0 < sent ∧ sent ≤ count ∧ middle.wire = (List.replicate sent badRequest).flatten := by
  match event, late with
  | .readable (.received bytes) answer, ⟨connected, closed, _⟩ =>
      have beside := run_wired (along_append_iff.mp possible).1
      rw [reached] at beside
      obtain ⟨between, ranBetween, same⟩ := beside.of_left
      obtain ⟨sent, some, fits, wire⟩ := same.cut (same.connected_iff.mp connected) closed
      rw [run_append, ranBetween, Option.bind_some] at ran
      obtain ⟨_, fewer⟩ := run_answers ranBetween
      obtain ⟨ahead, _⟩ := run_answers ran
      have counted : (messages before).length ≤ count := by
        rw [messages_append, List.length_append] at size
        have here : messages (.readable (.received bytes) answer :: after) = bytes :: messages after := rfl
        rw [here, List.length_cons] at size
        omega
      have none : HttpSession.new.answers = [] := rfl
      rw [none, List.length_nil, Nat.zero_add] at fewer
      have rejections : between.answers = List.replicate between.answers.length badRequest := by
        have taken := List.prefix_iff_eq_take.mp ahead
        rw [answers, List.take_append_of_le_length (by simp; omega), List.take_replicate, min_eq_left (by omega)] at taken
        exact taken
      refine ⟨closed, sent, some, by omega, ?_⟩
      rw [wire, rejections, List.take_replicate, min_eq_left fits]

/-- A well-formed request that arrives in any number of pieces, with any results
of the writes and other events between them, is answered by one rejection for
every piece but the last and then the answer to the whole, which is read back as
a 200 response. If no piece comes behind the half-close, these texts have gone
over the wire or may still go; otherwise only some of the rejections have, and
nothing follows them. The search for the end of an unfinished request line has
to find a null end pointer harmless. -/
theorem request_in_pieces (nullFind : NullFind) (sockfd : Nat) (text : RequestText) (events : List Event)
    (filled : text.fields ≠ []) (lasting : .destroyed ∉ events) (nonempty : [] ∉ messages events)
    (cut : (messages events).flatten = text.bytes)
    (found : ∀ received ∈ cuts 0 (messages events), received < text.requestLine.length + 2 → nullFind = .returnsLast)
    (possible : Along (step nullFind) Possible (established sockfd) events) :
    ∃ whole final, parseText nullFind .new text.bytes = .ok (whole, true) ∧
      run (step nullFind) (established sockfd) events = some final ∧
      final.wire ++ final.outputBuffer.readable =
        (List.replicate ((messages events).length - 1) badRequest).flatten ++ (HttpSession.response whole).text ∧
      (∃ message, ResponseMessage.decode (HttpSession.response whole).text = some message ∧
        message.line = HttpResponse.versionText text.version ++ ascii "200 OK" ∧
        message.body = HttpResponse.greeting) ∧
      (Along (step nullFind) (fun conn event => ¬ MessageAfterHalfClose conn event) (established sockfd) events →
        halfClosed final = true → final.outputBuffer.readable = []) ∧
      (¬ Along (step nullFind) (fun conn event => ¬ MessageAfterHalfClose conn event) (established sockfd) events →
        ∃ sent, 0 < sent ∧ sent < (messages events).length ∧
          final.wire = (List.replicate sent badRequest).flatten) := by
  obtain ⟨whole, parsed, version, _⟩ := parseText_lookup nullFind filled (progress_new text)
  have remain : messages events ≠ [] := by
    intro none
    rw [none] at cut
    exact absurd (List.append_eq_nil_iff.mp cut.symm).1 (by simp [Buffer.kCRLF])
  have pieces := List.length_pos_iff.mpr remain
  have up : HttpSession.new.connected = true := rfl
  obtain ⟨session, ran, answers⟩ :=
    run_pieces parsed filled up lasting nonempty remain cut (progress_new text) found
  have beside := run_wired possible
  rw [ran] at beside
  obtain ⟨final, ranFinal, same⟩ := beside.of_right
  refine ⟨whole, final, parsed, ranFinal, ?_,
    ⟨_, HttpResponse.decode_text (HttpResponse.setResponse_wellFormed whole), ?_, ?_⟩, ?_, ?_⟩
  · rw [← TcpConnection.stream_eq_wire, same.answers, answers]
    simp [HttpSession.new]
  · rw [← version]
    exact HttpResponse.setResponse_line whole
  · exact HttpResponse.setResponse_body whole
  · intro inTime closed
    have quiet : Quiet final := run_preserves_along Quiet (established_quiet sockfd)
      (fun _ _ _ quiet allowed stepped => quiet.step allowed stepped) inTime ranFinal
    exact quiet.drained closed (same.connected_iff.mpr (run_connected lasting up ran))
  · intro late
    obtain ⟨before, event, after, middle, rfl, reached, isLate⟩ := exists_of_not_along late
    obtain ⟨closed, sent, some, fits, wire⟩ :=
      sent_before_late possible reached (not_not.mp isLate) (by omega) ran answers
    have possibleAfter := (along_append_iff.mp possible).2 middle reached
    rw [run_append, reached, Option.bind_some] at ranFinal
    exact ⟨sent, some, by omega, (run_frozen (valid_of_run reached) closed possibleAfter ranFinal).trans wire⟩

def piecesEvents : List Event :=
  [.readable (.received (ascii "GE")) (.wrote 10), .readable .failed .failed,
    .readable (.received (ascii "T / HTTP/1.1\r\nHo")) .failed, .writable (.wrote 30),
    .readable (.received (ascii "st: a\r\n\r\n")) (.wrote 5), .writable .failed]

/-- The same pieces, where the first rejection is taken whole. -/
def latePiecesEvents : List Event :=
  [.readable (.received (ascii "GE")) (.wrote 28), .readable (.received (ascii "T / HTTP/1.1\r\nHo")) .failed,
    .readable (.received (ascii "st: a\r\n\r\n")) .failed, .writable .failed]

theorem request_in_pieces_waiting :
    (∃ whole final, parseText .returnsLast .new RequestText.hostRequest.bytes = .ok (whole, true) ∧
      run (step .returnsLast) (established 5) piecesEvents = some final ∧
      final.wire ++ final.outputBuffer.readable =
        (List.replicate 2 badRequest).flatten ++ (HttpSession.response whole).text) ∧
    ∃ final sent, run (step .returnsLast) (established 5) latePiecesEvents = some final ∧
      0 < sent ∧ sent < 3 ∧ final.wire = (List.replicate sent badRequest).flatten := by
  obtain ⟨whole, final, parsed, ran, shown, _⟩ := request_in_pieces .returnsLast 5 RequestText.hostRequest
    piecesEvents (by decide) (by decide) (by decide) (by decide) (by decide) (by decide +kernel)
  obtain ⟨_, late, _, ranLate, _, _, _, cutOff⟩ := request_in_pieces .returnsLast 5 RequestText.hostRequest
    latePiecesEvents (by decide) (by decide) (by decide) (by decide) (by decide) (by decide +kernel)
  obtain ⟨sent, some, fewer, wire⟩ := cutOff (by decide +kernel)
  exact ⟨⟨whole, final, parsed, ran, shown⟩, late, sent, ranLate, some, fewer, wire⟩

end HttpServer

end NutServer.Net
