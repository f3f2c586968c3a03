import NutServer.Net.HttpRequestProperties
import NutServer.Net.RequestText

/-!
# Requests received in pieces

The parser takes up its work at `peek()` in every call, also when an earlier
call has gone past the request line. From then on the request line is read as
the first header line.
-/

set_option autoImplicit false

namespace NutServer.Net

open Library

namespace HttpRequest

section Headers

variable {lines : List Bytes} {remaining key : Bytes} {fields : List (Bytes × Bytes)}
  {headers other : HeaderMap}

private theorem sectionEnds_of_long (long : ∀ line ∈ lines.tail, 2 < line.length) :
    sectionEnds lines = false := by
  induction lines with
  | nil => rfl
  | cons line lines ih =>
      cases lines with
      | nil => rfl
      | cons next lines =>
          have here := long next List.mem_cons_self
          rw [sectionEnds, ih fun other member => long other (List.mem_cons_of_mem _ member)]
          simp [endsAt, here]

theorem sectionEnds_empty {lines : List Bytes} (some : lines ≠ []) : sectionEnds (lines ++ [[]]) = true := by
  induction lines with
  | nil => exact absurd rfl some
  | cons line lines ih =>
      cases lines with
      | nil => rfl
      | cons next lines =>
          have others := ih (by simp)
          rw [List.cons_append, sectionEnds, others, Bool.or_true]

private theorem names_headerFields (remaining : Bytes) (long : ∀ line ∈ lines.tail, 2 < line.length) :
    (headerFields remaining lines).map Prod.fst = lines.map fieldName := by
  induction lines generalizing remaining with
  | nil => rfl
  | cons line lines ih =>
      cases lines with
      | nil => simp [headerFields]
      | cons next lines =>
          have here : ¬ next.length ≤ 2 := Nat.not_le.mpr (long next List.mem_cons_self)
          have others := ih (remaining.drop (line.length + 2)) fun other member =>
            long other (List.mem_cons_of_mem _ member)
          rw [headerFields]
          simp only [endsAt, here, decide_false, Bool.false_eq_true, if_false, List.map_cons, others]

theorem headerFields_empty (remaining : Bytes) (some : lines ≠ []) (long : ∀ line ∈ lines.tail, 2 < line.length) :
    headerFields remaining (lines ++ [[]]) = headerFields remaining lines := by
  induction lines generalizing remaining with
  | nil => exact absurd rfl some
  | cons line lines ih =>
      cases lines with
      | nil => simp [headerFields, endsAt]
      | cons next lines =>
          have here : ¬ next.length ≤ 2 := Nat.not_le.mpr (long next List.mem_cons_self)
          have others := ih (remaining.drop (line.length + 2)) (by simp) fun other member =>
            long other (List.mem_cons_of_mem _ member)
          rw [List.cons_append, headerFields, headerFields, others]
          simp [endsAt]

theorem enterAll_cons {field : Bytes × Bytes} :
    enterAll headers (field :: fields) = enterAll (headers.insert field.1 field.2) fields := rfl

theorem getElem?_enterAll_of_notMem (absent : key ∉ fields.map Prod.fst) :
    (enterAll headers fields)[key]? = headers[key]? := by
  induction fields generalizing headers with
  | nil => rfl
  | cons field fields ih =>
      simp only [List.map_cons, List.mem_cons, not_or] at absent
      rw [enterAll_cons, ih absent.2, Std.ExtTreeMap.getElem?_insert, if_neg]
      rw [Std.LawfulEqCmp.compare_eq_iff_eq]
      exact Ne.symm absent.1

theorem getElem?_enterAll_of_mem (present : key ∈ fields.map Prod.fst) :
    (enterAll headers fields)[key]? = (enterAll other fields)[key]? := by
  induction fields generalizing headers other with
  | nil => cases present
  | cons field fields ih =>
      by_cases later : key ∈ fields.map Prod.fst
      · exact ih later
      · have here : key = field.1 := by simpa [later] using present
        rw [enterAll_cons, enterAll_cons,
          getElem?_enterAll_of_notMem later, getElem?_enterAll_of_notMem later, here,
          Std.ExtTreeMap.getElem?_insert_self, Std.ExtTreeMap.getElem?_insert_self]

end Headers

section Progress

variable {nullFind : NullFind} {text : RequestText} {request : HttpRequest} {received more : Bytes}
  {before : Nat}

def names (text : RequestText) : List Bytes := text.fieldLines.map fieldName

/-- A request whose line has been parsed. Only the request line can have been
entered besides the fields of the text. -/
structure InHeaders (text : RequestText) (request : HttpRequest) : Prop where
  state : request.reqParseState = .exceptRequestHeaders
  method : request.method = some text.method
  uri : request.uri = text.uri
  version : request.version = text.version
  entered : ∀ key, key ≠ fieldName text.requestLine → key ∉ names text →
    request.requestHeaders[key]? = none

/-- What the parser knows after a call that saw the first `received` bytes. -/
def Progress (text : RequestText) (received : Nat) (request : HttpRequest) : Prop :=
  if received < text.requestLine.length + 2 then request = .new else InHeaders text request

theorem lineDone_requestLine (text : RequestText) :
    let line := (HttpRequest.new.lineOutcome text.requestLine).1.lineDone
    line.reqParseState = .exceptRequestHeaders ∧ line.method = some text.method ∧
      line.uri = text.uri ∧ line.version = text.version ∧ line.requestHeaders = ∅ := by
  rw [text.lineOutcome_requestLine]
  exact ⟨rfl, rfl, rfl, rfl, rfl⟩

/-- A proper prefix either misses the end of the request line or consists of
that line, some field lines, and the beginning of a line. -/
theorem prefix_cases (split : text.bytes = received ++ more) (proper : more ≠ []) :
    (received.length < text.requestLine.length + 2 ∧ 10 ∉ received) ∨
    ∃ lines tail, lines <+: text.fieldLines ∧ 10 ∉ tail ∧
      received = text.requestLine ++ Buffer.kCRLF ++ (joinLines lines ++ tail) := by
  obtain ⟨complete, line, after, tail, lines, received_eq, unfinished⟩ :=
    prefix_joinLines text.lines_inline (text.bytes_eq_joinLines.symm.trans split) proper
  cases complete with
  | nil =>
      rw [joinLines_nil, List.nil_append] at received_eq
      rw [received_eq]
      refine .inl ⟨?_, unfinished⟩
      by_contra long
      have front : tail.take (text.requestLine.length + 2) = text.requestLine ++ Buffer.kCRLF := by
        have whole := congrArg (List.take (text.requestLine.length + 2)) split
        rw [received_eq, List.take_append_of_le_length (Nat.le_of_not_lt long)] at whole
        rw [← whole, RequestText.bytes]
        exact List.take_left' (by simp [Buffer.kCRLF])
      have lf : 10 ∈ tail.take (text.requestLine.length + 2) := by simp [front, Buffer.kCRLF]
      exact unfinished (List.mem_of_mem_take lf)
  | cons first complete =>
      have rest : text.fieldLines ++ [[]] = complete ++ line :: after := (List.cons_eq_cons.mp lines).2
      have same : text.requestLine = first := (List.cons_eq_cons.mp lines).1
      have sizes := congrArg List.length rest
      simp only [List.length_append, List.length_cons, List.length_nil] at sizes
      refine .inr ⟨complete, tail, ?_, unfinished, ?_⟩
      · have whole : complete <+: text.fieldLines ++ [[]] := rest ▸ List.prefix_append _ _
        exact List.prefix_of_prefix_length_le whole (List.prefix_append _ _) (by omega)
      · rw [received_eq, joinLines_cons, List.append_assoc, same]

theorem InHeaders.headersDone {lines : List Bytes} (progress : InHeaders text request) (remaining : Bytes)
    (unended : sectionEnds lines = false)
    (known : ∀ name ∈ (headerFields remaining lines).map Prod.fst,
      name = fieldName text.requestLine ∨ name ∈ names text) :
    InHeaders text (request.headersDone remaining lines) := by
  have done : request.headersDone remaining lines = request.enter (headerFields remaining lines) := by
    rw [HttpRequest.headersDone, unended]
    rfl
  rw [done]
  refine ⟨progress.state, progress.method, progress.uri, progress.version, fun key other absent => ?_⟩
  rw [enter, getElem?_enterAll_of_notMem, progress.entered key other absent]
  exact fun member => (known key member).elim other absent

private theorem inHeaders_lineDone (text : RequestText) :
    InHeaders text (HttpRequest.new.lineOutcome text.requestLine).1.lineDone := by
  obtain ⟨state, method, uri, version, headers⟩ := lineDone_requestLine text
  exact ⟨state, method, uri, version, by simp [headers]⟩

theorem parseText_prefix (split : text.bytes = received ++ more) (proper : more ≠ [])
    (progress : Progress text before request) (grows : before ≤ received.length)
    (found : received.length < text.requestLine.length + 2 → nullFind = .returnsLast) :
    ∃ next, parseText nullFind request received = .ok (next, false) ∧
      Progress text received.length next := by
  rcases prefix_cases split proper with ⟨short, unfinished⟩ | ⟨lines, tail, fields, unfinished, received_eq⟩
  · rw [Progress, if_pos (by omega)] at progress
    refine ⟨request, ?_, by rw [Progress, if_pos short, progress]⟩
    rw [parseText_incomplete (by rw [progress]; rfl) (by rw [progress]; rfl)
      (searchFor_unfinished unfinished), found short]
  · have inline := fun line member => text.fieldLines_inline line (fields.subset member)
    have long := fun line member => text.fieldLines_long line (fields.subset member)
    have longTail := fun line (member : line ∈ lines.tail) => long line (List.mem_of_mem_tail member)
    have past : ¬ received.length < text.requestLine.length + 2 := by
      simp only [received_eq, List.length_append, Buffer.kCRLF, List.length_cons]
      omega
    have cut : CutInto (joinLines lines ++ tail) lines tail := cutInto_joinLines inline unfinished
    have first := searchFor_inline (joinLines lines ++ tail) text.requestLine_inline
    have ofText : ∀ name ∈ lines.map fieldName, name ∈ names text := fun name member =>
      (fields.map fieldName).subset member
    rw [received_eq] at past ⊢
    simp only [Progress, if_neg past]
    by_cases earlier : before < text.requestLine.length + 2
    · rw [Progress, if_pos earlier] at progress
      have unended : sectionEnds lines = false := sectionEnds_of_long longTail
      subst progress
      refine ⟨_, (parseText_line nullFind .new rfl first cut fun _ => text.unknownWord_requestLine).trans ?_,
        (inHeaders_lineDone text).headersDone (joinLines lines ++ tail) unended ?_⟩
      · rw [text.lineOutcome_requestLine, unended]
        rfl
      · intro name member
        rw [names_headerFields _ longTail] at member
        exact .inr (ofText name member)
    · rw [Progress, if_neg earlier] at progress
      have unended : sectionEnds (text.requestLine :: lines) = false := sectionEnds_of_long long
      have whole := CutInto.line first cut
      refine ⟨_, (parseText_headers nullFind progress.state whole).trans (by rw [unended]),
        progress.headersDone _ unended ?_⟩
      intro name member
      have longLater : ∀ line ∈ (text.requestLine :: lines).tail, 2 < line.length := long
      rw [names_headerFields _ longLater] at member
      exact (List.mem_cons.mp member).imp id (ofText name)

def wholeHeaders (text : RequestText) : HeaderMap :=
  enterAll ∅ (headerFields text.headerSection text.fieldLines)

theorem names_wholeHeaders (text : RequestText) :
    (headerFields text.headerSection text.fieldLines).map Prod.fst = names text :=
  names_headerFields _ fun line member => text.fieldLines_long line (List.mem_of_mem_tail member)

/-- Entering one more field in front of those of the text gives the map of the
text alone exactly when the text has a field of that name. -/
theorem enterAll_eq_wholeHeaders_iff {headers : HeaderMap} {value : Bytes}
    (entered : ∀ key, key ≠ fieldName text.requestLine → key ∉ names text → headers[key]? = none) :
    enterAll headers ((fieldName text.requestLine, value) ::
        headerFields text.headerSection text.fieldLines) = wholeHeaders text ↔
      fieldName text.requestLine ∈ names text := by
  have notEntered : ∀ {map : HeaderMap} {key : Bytes}, key ∉ names text →
      (enterAll map (headerFields text.headerSection text.fieldLines))[key]? = map[key]? :=
    fun absent => getElem?_enterAll_of_notMem (by rwa [names_wholeHeaders])
  rw [enterAll_cons]
  constructor
  · intro same
    by_contra absent
    have here := congrArg (fun map : HeaderMap => map[fieldName text.requestLine]?) same
    simp only [wholeHeaders, notEntered absent, Std.ExtTreeMap.getElem?_insert_self,
      Std.ExtTreeMap.getElem?_empty] at here
    cases here
  · intro present
    refine Std.ExtTreeMap.ext_getElem? fun key => ?_
    by_cases known : key ∈ names text
    · exact getElem?_enterAll_of_mem (by rwa [names_wholeHeaders])
    · have other : key ≠ fieldName text.requestLine := fun same => known (same ▸ present)
      rw [wholeHeaders, notEntered known, notEntered known, Std.ExtTreeMap.getElem?_insert,
        if_neg, entered key other known, Std.ExtTreeMap.getElem?_empty]
      rw [Std.LawfulEqCmp.compare_eq_iff_eq]
      exact Ne.symm other

/-- The last call completes the request. Its headers are those of a single call
unless the request line was entered as a field that the text does not have. -/
theorem parseText_whole (nullFind : NullFind) (some : text.fields ≠ []) (progress : Progress text before request) :
    ∃ next, parseText nullFind request text.bytes = .ok (next, true) ∧
      next.method = .some text.method ∧ next.uri = text.uri ∧ next.version = text.version ∧
      (next.requestHeaders = wholeHeaders text ↔
        (text.requestLine.length + 2 ≤ before → fieldName text.requestLine ∈ names text)) := by
  have someLines : text.fieldLines ≠ [] := by simpa [RequestText.fieldLines] using some
  have long := text.fieldLines_long
  have longTail := fun line (member : line ∈ text.fieldLines.tail) => long line (List.mem_of_mem_tail member)
  have cut : CutInto text.headerSection (text.fieldLines ++ [[]]) [] := by
    have lines : CutInto (joinLines (text.fieldLines ++ [[]]) ++ []) (text.fieldLines ++ [[]]) [] :=
      cutInto_joinLines (fun line member => text.lines_inline line (List.mem_cons_of_mem _ member)) List.not_mem_nil
    rwa [List.append_nil] at lines
  have first := searchFor_inline text.headerSection text.requestLine_inline
  rw [RequestText.bytes]
  by_cases earlier : before < text.requestLine.length + 2
  · rw [Progress, if_pos earlier] at progress
    subst progress
    obtain ⟨_, method, uri, version, headers⟩ := lineDone_requestLine text
    have parsed := parseText_line nullFind .new rfl first cut fun _ =>
      text.unknownWord_requestLine
    have accepted : (HttpRequest.new.lineOutcome text.requestLine).2 = true := by
      rw [text.lineOutcome_requestLine]
    rw [if_pos accepted, sectionEnds_empty someLines] at parsed
    obtain ⟨sameMethod, sameUri, sameVersion, entered⟩ := headersDone_frame
      (HttpRequest.new.lineOutcome text.requestLine).1.lineDone text.headerSection (text.fieldLines ++ [[]])
    refine ⟨_, parsed, sameMethod.trans method, sameUri.trans uri, sameVersion.trans version, ?_⟩
    rw [entered, headers, headerFields_empty _ someLines longTail]
    exact iff_of_true rfl fun late => absurd earlier (by omega)
  · rw [Progress, if_neg earlier] at progress
    have parsed := parseText_headers nullFind progress.state (CutInto.line first cut)
    have ends : sectionEnds (text.requestLine :: (text.fieldLines ++ [[]])) = true :=
      sectionEnds_empty (List.cons_ne_nil text.requestLine text.fieldLines)
    rw [ends] at parsed
    obtain ⟨sameMethod, sameUri, sameVersion, entered⟩ := headersDone_frame request
      (text.requestLine ++ Buffer.kCRLF ++ text.headerSection)
      (text.requestLine :: (text.fieldLines ++ [[]]))
    refine ⟨_, parsed, sameMethod.trans progress.method, sameUri.trans progress.uri,
      sameVersion.trans progress.version, ?_⟩
    have late : text.requestLine.length + 2 ≤ before := Nat.le_of_not_lt earlier
    have goesOn : endsAt (text.fieldLines ++ [[]]) = false := by
      obtain ⟨line, rest, lines⟩ := List.exists_cons_of_ne_nil someLines
      have here := long line (lines ▸ List.mem_cons_self)
      simp [lines, endsAt, here]
    have behind : (text.requestLine ++ Buffer.kCRLF ++ text.headerSection).drop
        (text.requestLine.length + 2) = text.headerSection :=
      List.drop_left' (by simp [Buffer.kCRLF])
    rw [entered, headerFields, goesOn, behind, headerFields_empty _ someLines longTail]
    simp only [Bool.false_eq_true, if_false, enterAll_eq_wholeHeaders_iff progress.entered, late,
      true_implies]

end Progress

/-- One call of `parseRequest` after each piece that is appended to the buffer:
the request after the last call and what the calls returned. -/
def feed (nullFind : NullFind) (buf : Buffer) (request : HttpRequest) :
    List Bytes → Outcome (HttpRequest × List Bool)
  | [] => .ok (request, [])
  | chunk :: rest => do
      let buf ← buf.append chunk
      let (request, complete) ← request.parseRequest nullFind buf
      let (request, answers) ← feed nullFind buf request rest
      return (request, complete :: answers)

/-- The pieces are parsed like the whole: the calls ask for more until the last
one, and the request is that of a single call. -/
def CutIndependent (nullFind : NullFind) (chunks : List Bytes) : Prop :=
  ∃ request whole,
    feed nullFind Buffer.fresh .new chunks =
      .ok (request, List.replicate (chunks.length - 1) false ++ [true]) ∧
    feed nullFind Buffer.fresh .new [chunks.flatten] = .ok (whole, [true]) ∧
    request.method = whole.method ∧ request.uri = whole.uri ∧ request.version = whole.version ∧
    request.requestHeaders = whole.requestHeaders

/-- The number of bytes in the buffer at each call but the last. -/
def cuts (received : Nat) : List Bytes → List Nat
  | chunk :: next :: rest => (received + chunk.length) :: cuts (received + chunk.length) (next :: rest)
  | _ => []

/-- A call with so many bytes does no harm: it comes before the end of the
request line and finds a null end pointer harmless, or it comes later and the
text has a field named like the request line. -/
def SafeCut (nullFind : NullFind) (text : RequestText) (received : Nat) : Prop :=
  (received < text.requestLine.length + 2 → nullFind = .returnsLast) ∧
    (text.requestLine.length + 2 ≤ received → fieldName text.requestLine ∈ names text)

instance decidableSafeCut (nullFind : NullFind) (text : RequestText) (received : Nat) :
    Decidable (SafeCut nullFind text received) :=
  inferInstanceAs (Decidable ((received < text.requestLine.length + 2 → nullFind = .returnsLast) ∧
    (text.requestLine.length + 2 ≤ received → fieldName text.requestLine ∈ names text)))

structure Whole (text : RequestText) (request : HttpRequest) : Prop where
  method : request.method = some text.method
  uri : request.uri = text.uri
  version : request.version = text.version
  requestHeaders : request.requestHeaders = wholeHeaders text

section Feed

variable {nullFind : NullFind} {text : RequestText} {buf : Buffer} {request : HttpRequest}
  {chunk : Bytes} {chunks : List Bytes}

private theorem feed_cons {next : Buffer} (valid : next.Valid) (appended : buf.append chunk = .ok next) :
    feed nullFind buf request (chunk :: chunks) = do
      let (request, complete) ← parseText nullFind request next.readable
      let (request, answers) ← feed nullFind next request chunks
      return (request, complete :: answers) := by
  rw [feed, appended, Outcome.ok_bind, parseRequest_eq valid]

private theorem answers_cons_iff {rest : Outcome (HttpRequest × List Bool)} {final : HttpRequest}
    {answers : List Bool} {complete : Bool} :
    (do let (request, answers) ← rest; return (request, complete :: answers)) =
        (.ok (final, complete :: answers) : Outcome (HttpRequest × List Bool)) ↔
      rest = .ok (final, answers) := by
  rw [Outcome.bind_eq_ok_iff]
  constructor
  · rintro ⟨⟨request, others⟩, fed, same⟩
    cases same
    exact fed
  · exact fun fed => ⟨_, fed, rfl⟩

private theorem parseText_unfinished {received more : Bytes} (split : text.bytes = received ++ more)
    (proper : more ≠ []) (short : received.length < text.requestLine.length + 2) :
    parseText .undefined .new received = .error .range := by
  rcases prefix_cases split proper with ⟨_, unfinished⟩ | ⟨lines, tail, _, _, received_eq⟩
  · exact parseText_incomplete rfl rfl (searchFor_unfinished unfinished)
  · simp only [received_eq, List.length_append, Buffer.kCRLF, List.length_cons] at short
    omega

/-- From any point of the text on, the rest is parsed as it should be exactly
when all further cuts are safe and the request line was not entered. -/
theorem feed_iff (nullFind : NullFind) (some : text.fields ≠ []) (remain : chunks ≠ []) (nonempty : ∀ chunk ∈ chunks, chunk ≠ [])
    (valid : buf.Valid) (split : buf.readable ++ chunks.flatten = text.bytes)
    (progress : Progress text buf.readable.length request) :
    (∃ final, feed nullFind buf request chunks =
        .ok (final, List.replicate (chunks.length - 1) false ++ [true]) ∧ Whole text final) ↔
      (∀ received ∈ cuts buf.readable.length chunks, SafeCut nullFind text received) ∧
        (text.requestLine.length + 2 ≤ buf.readable.length → fieldName text.requestLine ∈ names text) := by
  induction chunks generalizing buf request with
  | nil => exact absurd rfl remain
  | cons chunk chunks ih =>
      obtain ⟨next, appended, nextValid, shown⟩ := Buffer.append_spec valid chunk
      rw [feed_cons nextValid appended]
      cases chunks with
      | nil =>
          have whole : next.readable = text.bytes := by simpa [shown] using split
          obtain ⟨final, parsed, method, uri, version, headers⟩ :=
            parseText_whole nullFind some progress
          rw [whole, parsed]
          simp only [Outcome.ok_bind, feed, cuts, List.not_mem_nil, false_implies, implies_true,
            true_and, ← headers]
          constructor
          · rintro ⟨other, same, wholeOther⟩
            cases same
            exact wholeOther.requestHeaders
          · exact fun same => ⟨final, rfl, method, uri, version, same⟩
      | cons second chunks =>
          have more : (second :: chunks).flatten ≠ [] := by
            simp [nonempty second (by simp)]
          have splitNext : next.readable ++ (second :: chunks).flatten = text.bytes := by
            rw [shown, ← split, List.flatten_cons (l := chunk), List.append_assoc]
          have size : buf.readable.length + chunk.length = next.readable.length := by
            rw [shown, List.length_append]
          rw [cuts, size, List.forall_mem_cons]
          by_cases found : next.readable.length < text.requestLine.length + 2 → nullFind = .returnsLast
          · obtain ⟨after, parsed, progressed⟩ :=
              parseText_prefix splitNext.symm more progress (by omega) found
            have others := ih (by simp)
              (fun other member => nonempty other (List.mem_cons_of_mem _ member)) nextValid splitNext progressed
            have expected : List.replicate ((chunk :: second :: chunks).length - 1) false ++ [true] =
                false :: (List.replicate ((second :: chunks).length - 1) false ++ [true]) := rfl
            rw [parsed, expected]
            simp only [Outcome.ok_bind, answers_cons_iff]
            rw [others]
            constructor
            · rintro ⟨safe, entered⟩
              exact ⟨⟨⟨found, entered⟩, safe⟩, fun late => entered (by omega)⟩
            · rintro ⟨⟨here, safe⟩, _⟩
              exact ⟨safe, here.2⟩
          · obtain ⟨short, lost⟩ := Classical.not_imp.mp found
            have fresh : request = .new := by
              rwa [Progress, if_pos (by omega)] at progress
            have undefinedSearch : nullFind = .undefined := by
              cases nullFind with
              | returnsLast => exact absurd rfl lost
              | undefined => rfl
            subst fresh undefinedSearch
            rw [parseText_unfinished splitNext.symm more short]
            refine iff_of_false ?_ fun safe => found safe.1.1.1
            rintro ⟨_, failed, _⟩
            cases failed

/-- The pieces of a request text are parsed like the whole exactly when every
cut is safe. -/
theorem cutIndependent_iff (some : text.fields ≠ []) (nonempty : ∀ chunk ∈ chunks, chunk ≠ [])
    (cut : chunks.flatten = text.bytes) :
    CutIndependent nullFind chunks ↔ ∀ received ∈ cuts 0 chunks, SafeCut nullFind text received := by
  have remain : chunks ≠ [] := by
    rintro rfl
    exact absurd (List.append_eq_nil_iff.mp cut.symm).1 (by simp [Buffer.kCRLF])
  have start : Progress text Buffer.fresh.readable.length .new := by
    rw [Progress, if_pos (by simp)]
  have pieces := feed_iff nullFind some remain nonempty Buffer.fresh_valid
    (by simpa using cut) start
  have single := feed_iff nullFind some (List.cons_ne_nil text.bytes [])
    (by simp [RequestText.bytes, Buffer.kCRLF]) Buffer.fresh_valid (by simp) start
  obtain ⟨whole, fedWhole, isWhole⟩ := single.mpr ⟨by simp [cuts], by simp⟩
  simp only [Buffer.fresh_readable, List.length_nil] at pieces
  have unreached : ¬ text.requestLine.length + 2 ≤ 0 := by omega
  rw [← and_iff_left (a := ∀ received ∈ cuts 0 chunks, _) fun late => absurd late unreached, ← pieces,
    CutIndependent, cut]
  constructor
  · rintro ⟨final, other, fed, fedOther, method, uri, version, headers⟩
    cases fedWhole.symm.trans fedOther
    exact ⟨final, fed, method.trans isWhole.method, uri.trans isWhole.uri, version.trans isWhole.version,
      headers.trans isWhole.requestHeaders⟩
  · rintro ⟨final, fed, isFinal⟩
    exact ⟨final, whole, fed, fedWhole, isFinal.method.trans isWhole.method.symm,
      isFinal.uri.trans isWhole.uri.symm, isFinal.version.trans isWhole.version.symm,
      isFinal.requestHeaders.trans isWhole.requestHeaders.symm⟩

end Feed

theorem cutIndependent_inside_method :
    CutIndependent .returnsLast [ascii "GE", ascii "T / HTTP/1.1\r\nHost: a\r\n\r\n"] :=
  (cutIndependent_iff (show RequestText.hostRequest.fields ≠ [] by decide) (by decide) (by decide)).mpr
    (by decide)

/-- A cut behind the request line makes the request line a header field. -/
theorem not_cutIndependent_behind_line :
    RequestText.hostRequest.fields ≠ [] ∧
      [ascii "GET / HTTP/1.1\r\n", ascii "Host: a\r\n\r\n"].flatten = RequestText.hostRequest.bytes ∧
      ¬ CutIndependent .returnsLast [ascii "GET / HTTP/1.1\r\n", ascii "Host: a\r\n\r\n"] := by
  refine ⟨by decide, by decide, ?_⟩
  have pieces : (feed .returnsLast Buffer.fresh .new
      [ascii "GET / HTTP/1.1\r\n", ascii "Host: a\r\n\r\n"]).toOption.map
        (fun fed => fed.1.requestHeaders[ascii "GET / HTTP/1.1"]?.isSome) = some true := by
    decide +kernel
  have single : (feed .returnsLast Buffer.fresh .new
      [[ascii "GET / HTTP/1.1\r\n", ascii "Host: a\r\n\r\n"].flatten]).toOption.map
        (fun fed => fed.1.requestHeaders[ascii "GET / HTTP/1.1"]?.isSome) = some false := by
    decide +kernel
  rintro ⟨request, whole, fed, fedWhole, _, _, _, headers⟩
  rw [fed] at pieces
  rw [fedWhole] at single
  simp only [Except.toOption, Option.map_some, Option.some.injEq, headers] at pieces single
  rw [pieces] at single
  cases single

end HttpRequest

end NutServer.Net
