import NutServer.Net.BufferProperties
import NutServer.Net.HttpRequestHeadersProperties

/-! The state machine of `parseRequest`: what one call returns in each state,
and when it returns at all. -/

set_option autoImplicit false

namespace NutServer.Net

open Library

namespace HttpRequest

def headersDone (request : HttpRequest) (remaining : Bytes) (lines : List Bytes) : HttpRequest :=
  let entered := request.enter (headerFields remaining lines)
  if sectionEnds lines then { entered with reqParseState := .parseReqFinished } else entered

theorem headersDone_frame (request : HttpRequest) (remaining : Bytes) (lines : List Bytes) :
    (request.headersDone remaining lines).method = request.method ∧
      (request.headersDone remaining lines).uri = request.uri ∧
      (request.headersDone remaining lines).version = request.version ∧
      (request.headersDone remaining lines).requestHeaders =
        enterAll request.requestHeaders (headerFields remaining lines) := by
  cases ends : sectionEnds lines <;> simp [headersDone, ends, enter]

def lineDone (request : HttpRequest) : HttpRequest :=
  { request with reqParseState := .exceptRequestHeaders }

section Calls

variable {nullFind : NullFind} {text line tail : Bytes} {lines : List Bytes} {request : HttpRequest}
  {turns start : Nat} {finish : Option Nat}

private theorem watch_parseReqFinished (state : request.reqParseState = .parseReqFinished) :
    watch (requestBody nullFind text) (turns + 1) ⟨request, start, finish⟩ = .ok request :=
  watch_leave (by simp only [requestBody, state]; rfl)

private theorem watch_exceptRequestBody (state : request.reqParseState = .exceptRequestBody) :
    watch (requestBody nullFind text) (turns + 2) ⟨request, start, finish⟩ =
      .ok { request with reqParseState := .parseReqFinished } := by
  have turn : requestBody nullFind text ⟨request, start, finish⟩ = .ok (.again
      ⟨{ request with reqParseState := .parseReqFinished }, start, finish⟩) := by
    simp only [requestBody, state, parseReqBody]
    rfl
  rw [watch_again turn, watch_parseReqFinished rfl]

private theorem watch_exceptRequestHeaders (state : request.reqParseState = .exceptRequestHeaders)
    (inside : start ≤ text.length) (cut : CutInto (text.drop start) lines tail) :
    watch (requestBody nullFind text) (turns + 3) ⟨request, start, finish⟩ =
      .ok (request.headersDone (text.drop start) lines) := by
  have whole : slice text start text.length = text.drop start := by
    rw [slice, List.take_length]
  have parsed := parseReqHeaders_spec nullFind request inside (Nat.le_refl _) (whole ▸ cut)
  rw [whole] at parsed
  cases ends : sectionEnds lines with
  | false =>
      have turn : requestBody nullFind text ⟨request, start, finish⟩ =
          .ok (.leave (request.headersDone (text.drop start) lines)) := by
        simp [requestBody, state, parsed, ends, headersDone, pure, Except.pure]
      rw [watch_leave turn]
  | true =>
      have turn : requestBody nullFind text ⟨request, start, finish⟩ =
          .ok (.again ⟨{ request.enter (headerFields (text.drop start) lines) with
            reqParseState := .exceptRequestBody }, text.length, some text.length⟩) := by
        simp [requestBody, state, parsed, ends, pure, Except.pure]
      rw [watch_again turn, watch_exceptRequestBody rfl]
      simp [headersDone, ends]

private theorem getFullReq_headersDone (request : HttpRequest) (state : request.reqParseState = .exceptRequestHeaders) :
    (request.headersDone tail lines).getFullReq = sectionEnds lines := by
  cases ends : sectionEnds lines <;> simp [headersDone, ends, getFullReq, enter, state]

theorem parseText_headers (nullFind : NullFind) (state : request.reqParseState = .exceptRequestHeaders)
    (cut : CutInto text lines tail) :
    parseText nullFind request text = .ok (request.headersDone text lines, sectionEnds lines) := by
  have watched : watch (requestBody nullFind text) 4 ⟨request, 0, some text.length⟩ =
      .ok (request.headersDone (text.drop 0) lines) :=
    watch_exceptRequestHeaders state (Nat.zero_le _) cut
  rw [List.drop_zero] at watched
  rw [parseText, watched]
  simp [getFullReq_headersDone request state, pure, Except.pure]

theorem parseText_finished (state : request.reqParseState = .parseReqFinished) :
    parseText nullFind request text = .ok (request, true) := by
  rw [parseText, watch_parseReqFinished state]
  simp [getFullReq, state, pure, Except.pure]

theorem parseText_body (state : request.reqParseState = .exceptRequestBody) :
    parseText nullFind request text = .ok ({ request with reqParseState := .parseReqFinished }, true) := by
  rw [parseText, watch_exceptRequestBody state]
  simp [getFullReq, pure, Except.pure]

private theorem lineOutcome_frame (request : HttpRequest) (line : Bytes) :
    (request.lineOutcome line).1.reqParseState = request.reqParseState ∧
      (request.lineOutcome line).1.requestHeaders = request.requestHeaders := by
  unfold lineOutcome lineOutcome.uriOutcome lineOutcome.versionOutcome
  constructor <;> (split <;> (try split) <;> (try split) <;> (try split) <;> (try split) <;> rfl)

theorem parseText_line (nullFind : NullFind) (request : HttpRequest) {rest : Bytes}
    (state : request.reqParseState = .exceptRequestLine)
    (first : searchFor Buffer.kCRLF (line ++ Buffer.kCRLF ++ rest) = some line.length)
    (cut : CutInto rest lines tail)
    (known : request.lineParseState = .exceptMethod → unknownWord line = false) :
    parseText nullFind request (line ++ Buffer.kCRLF ++ rest) = .ok
      (if (request.lineOutcome line).2 then
        ((request.lineOutcome line).1.lineDone.headersDone rest lines, sectionEnds lines)
      else ((request.lineOutcome line).1, false)) := by
  have parsed : parseReqLine nullFind request (line ++ Buffer.kCRLF ++ rest) 0 (some (0 + line.length)) =
      .ok (request.lineOutcome line) := parseReqLine_spec nullFind rfl known
  rw [Nat.zero_add] at parsed
  have dropped : (line ++ Buffer.kCRLF ++ rest).drop (line.length + 2) = rest := by
    rw [List.append_assoc, ← List.drop_drop, List.drop_left]
    rfl
  have inside : line.length + 2 ≤ (line ++ Buffer.kCRLF ++ rest).length := by
    simp only [List.length_append, Buffer.kCRLF, List.length_cons, List.length_nil]
    omega
  cases accepted : (request.lineOutcome line).2 with
  | false =>
      have turn : requestBody nullFind (line ++ Buffer.kCRLF ++ rest)
          ⟨request, 0, some (line ++ Buffer.kCRLF ++ rest).length⟩ =
            .ok (.leave (request.lineOutcome line).1) := by
        simp only [requestBody, state, first, parsed, Outcome.ok_bind, accepted, Bool.false_eq_true, if_false]
        rfl
      rw [parseText, watch_leave turn]
      simp [getFullReq, (lineOutcome_frame request line).1, state, pure, Except.pure]
  | true =>
      have turn : requestBody nullFind (line ++ Buffer.kCRLF ++ rest)
          ⟨request, 0, some (line ++ Buffer.kCRLF ++ rest).length⟩ =
            .ok (.again ⟨(request.lineOutcome line).1.lineDone, line.length + 2, some line.length⟩) := by
        simp only [requestBody, state, first, parsed, Outcome.ok_bind, accepted, if_true]
        rfl
      have watched : watch (requestBody nullFind (line ++ Buffer.kCRLF ++ rest)) 3
          ⟨(request.lineOutcome line).1.lineDone, line.length + 2, some line.length⟩ =
          .ok ((request.lineOutcome line).1.lineDone.headersDone
            ((line ++ Buffer.kCRLF ++ rest).drop (line.length + 2)) lines) :=
        watch_exceptRequestHeaders rfl inside (dropped.symm ▸ cut)
      rw [dropped] at watched
      rw [parseText, watch_again turn, watched]
      simp [getFullReq_headersDone (request.lineOutcome line).1.lineDone rfl, pure, Except.pure]

/-- A call that starts at the request line but has no CRLF hands the search a
null end pointer. -/
theorem parseText_incomplete (state : request.reqParseState = .exceptRequestLine)
    (method : request.lineParseState = .exceptMethod)
    (none : searchFor Buffer.kCRLF text = none) :
    parseText nullFind request text =
      match nullFind with
      | .returnsLast => .ok (request, false)
      | .undefined => .error .range := by
  cases nullFind with
  | returnsLast =>
      have parsed : parseReqLine .returnsLast request text 0 Option.none = .ok (request, false) :=
        watch_leave (by simp only [lineBody, method]; rfl)
      have turn : requestBody .returnsLast text ⟨request, 0, some text.length⟩ = .ok (.leave request) := by
        simp only [requestBody, state, none, parsed]
        rfl
      rw [parseText, watch_leave turn]
      simp [getFullReq, state, pure, Except.pure]
  | undefined =>
      have parsed : parseReqLine .undefined request text 0 Option.none = .error .range := by
        simp only [parseReqLine, watch, loop, lineBody, method, stdFind]
        rfl
      have turn : requestBody .undefined text ⟨request, 0, some text.length⟩ = .error .range := by
        simp only [requestBody, state, none, parsed]
        rfl
      simp only [parseText, watch, loop, turn, turnOf]
      rfl

/-- Whatever state a call starts in, it returns when its request line has a
complete first word that is known or of no method's length. -/
theorem parseText_returns_iff {rest : Bytes}
    (first : searchFor Buffer.kCRLF (line ++ Buffer.kCRLF ++ rest) = some line.length) :
    (∃ result, parseText nullFind request (line ++ Buffer.kCRLF ++ rest) = .ok result) ↔
      ¬ (request.reqParseState = .exceptRequestLine ∧ request.lineParseState = .exceptMethod ∧
        unknownWord line = true) := by
  obtain ⟨lines, tail, cut⟩ := exists_cutInto rest
  cases state : request.reqParseState with
  | exceptRequestLine =>
      constructor
      · rintro ⟨result, returned⟩ ⟨_, method, unknown⟩
        have stuck : ¬ Finishes (lineBody nullFind (line ++ Buffer.kCRLF ++ rest) 0
            (some (0 + line.length))) ⟨request, 0⟩ := not_finishes_of_unknownWord rfl method unknown
        rw [Nat.zero_add] at stuck
        have parsed : ∀ answer, parseReqLine nullFind request (line ++ Buffer.kCRLF ++ rest) 0
            (some line.length) ≠ .ok answer := fun answer answered => stuck (finishes_of_watch answered)
        cases answer : parseReqLine nullFind request (line ++ Buffer.kCRLF ++ rest) 0 (some line.length) with
        | ok answer' => exact parsed answer' answer
        | error fault =>
            have turn : requestBody nullFind (line ++ Buffer.kCRLF ++ rest)
                ⟨request, 0, some (line ++ Buffer.kCRLF ++ rest).length⟩ = .error fault := by
              simp only [requestBody, state, first, answer]
              rfl
            have failed : parseText nullFind request (line ++ Buffer.kCRLF ++ rest) = .error fault := by
              simp only [parseText, watch, loop, turn, turnOf]
              rfl
            rw [failed] at returned
            cases returned
      · intro known
        refine ⟨_, parseText_line nullFind request state first cut fun method => ?_⟩
        exact Bool.eq_false_iff.mpr fun unknown => known ⟨rfl, method, unknown⟩
  | exceptRequestHeaders =>
      obtain ⟨lines, tail, cut⟩ := exists_cutInto (line ++ Buffer.kCRLF ++ rest)
      exact ⟨fun _ stuck => absurd stuck.1 (by decide), fun _ => ⟨_, parseText_headers nullFind state cut⟩⟩
  | exceptRequestBody => exact ⟨fun _ stuck => absurd stuck.1 (by decide), fun _ => ⟨_, parseText_body state⟩⟩
  | parseReqFinished => exact ⟨fun _ stuck => absurd stuck.1 (by decide), fun _ => ⟨_, parseText_finished state⟩⟩

theorem parseRequest_eq {buf : Buffer} (valid : buf.Valid) :
    parseRequest nullFind request buf = parseText nullFind request buf.readable := by
  have ordered := valid.ordered
  have bounded := valid.bounded
  rw [parseRequest, Buffer.bytesBetween, if_pos ⟨ordered, bounded⟩]
  rfl

theorem findCRLF_cut {buf : Buffer} {position : Nat} (found : buf.findCRLF = some position) :
    let line := slice buf.buffer buf.peek position
    ∃ rest, buf.readable = line ++ Buffer.kCRLF ++ rest ∧
      searchFor Buffer.kCRLF buf.readable = some line.length := by
  obtain ⟨offset, searched, rfl⟩ := Option.map_eq_some_iff.mp found
  have inside := searchFor_bound (by simp [Buffer.kCRLF]) searched
  have two : Buffer.kCRLF.length = 2 := rfl
  simp only [length_slice, two, Buffer.peek, Buffer.beginWrite] at inside
  have line : slice buf.buffer buf.peek (buf.peek + offset) = buf.readable.take offset :=
    (slice_take (by simp only [Buffer.peek]; omega)).symm
  refine ⟨_, line ▸ searchFor_split searched, ?_⟩
  rw [line, List.length_take, Nat.min_eq_left]
  · exact searched
  · rw [Buffer.readable, length_slice]
    omega

/-- The loop of `parseReqLine` on a range that ends at a CRLF, and a whole call
of `parseRequest` on a buffer with a CRLF, come to an end exactly when they do
not start at an unknown word of a method's length. -/
theorem parser_returns_iff (nullFind : NullFind) (request : HttpRequest) {buf : Buffer} {begin position : Nat} {rest : Bytes}
    (cut : text.drop begin = line ++ Buffer.kCRLF ++ rest)
    (valid : buf.Valid) (found : buf.findCRLF = some position) :
    (Finishes (lineBody nullFind text begin (some (begin + line.length))) ⟨request, begin⟩ ↔
      ¬ (request.lineParseState = .exceptMethod ∧ unknownWord line = true)) ∧
    ((∃ result, parseRequest nullFind request buf = .ok result) ↔
      ¬ (request.reqParseState = .exceptRequestLine ∧ request.lineParseState = .exceptMethod ∧
        unknownWord (slice buf.buffer buf.peek position) = true)) := by
  obtain ⟨rest, readable, first⟩ := findCRLF_cut found
  refine ⟨parseReqLine_finishes_iff cut, ?_⟩
  rw [parseRequest_eq valid]
  rw [readable] at first ⊢
  exact parseText_returns_iff first

end Calls

theorem parser_returns_get :
    let text := ascii "GET / HTTP/1.1\r\n"
    Finishes (lineBody .undefined text 0 (some 14)) ⟨new, 0⟩ ∧
      ∃ result, parseRequest .undefined new ⟨text, 0, 16⟩ = .ok result := by
  have cut : (ascii "GET / HTTP/1.1\r\n").drop 0 = ascii "GET / HTTP/1.1" ++ Buffer.kCRLF ++ [] := by decide
  have valid : Buffer.Valid ⟨ascii "GET / HTTP/1.1\r\n", 0, 16⟩ := ⟨by decide, by decide, by decide⟩
  have found : Buffer.findCRLF ⟨ascii "GET / HTTP/1.1\r\n", 0, 16⟩ = some 14 := by decide
  have returns := parser_returns_iff .undefined new cut valid found
  exact ⟨returns.1.mpr (by decide), returns.2.mpr (by decide)⟩

/-- A three-letter word that is no method keeps the loop, and the call, for ever. -/
theorem parser_hangs_foo :
    let text := ascii "FOO / HTTP/1.1\r\n"
    ¬ Finishes (lineBody .undefined text 0 (some 14)) ⟨new, 0⟩ ∧
      ¬ ∃ result, parseRequest .undefined new ⟨text, 0, 16⟩ = .ok result := by
  constructor
  · have cut : (ascii "FOO / HTTP/1.1\r\n").drop 0 = ascii "FOO / HTTP/1.1" ++ Buffer.kCRLF ++ [] := by
      decide
    exact not_finishes_of_unknownWord cut rfl (by decide)
  · have hangs : (parseRequest .undefined new ⟨ascii "FOO / HTTP/1.1\r\n", 0, 16⟩).toOption.isSome = false := by
      decide
    rintro ⟨result, returned⟩
    rw [returned] at hangs
    cases hangs

end HttpRequest

end NutServer.Net
