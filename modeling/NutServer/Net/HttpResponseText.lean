import NutServer.Library.Lines
import NutServer.Net.BufferSize
import NutServer.Net.HttpServerProperties
import NutServer.Net.RequestText

/-!
# Responses as texts

A reader of a response cuts the status line off at the first line end, takes
the lines up to the first empty one for headers, and the rest for the body.
-/

set_option autoImplicit false

namespace NutServer.Net

open Library

/-- What a response tells its reader. -/
structure ResponseMessage where
  line : Bytes
  headers : HeaderMap
  body : Bytes

namespace ResponseMessage

def decode (text : Bytes) : Option ResponseMessage := do
  let (line, rest) ← splitFirst Buffer.kCRLF text
  let (lines, body) ← paragraph Buffer.kCRLF text.length rest
  let fields ← lines.mapM (splitFirst (ascii ": "))
  return { line, headers := .ofList fields compare, body }

end ResponseMessage

namespace HeaderMap

variable {headers : HeaderMap} {key value : Bytes}

/-- Entering the entries of a map one after the other gives the map again. -/
theorem ofList_toList (headers : HeaderMap) : Std.ExtTreeMap.ofList headers.toList compare = headers := by
  refine Std.ExtTreeMap.ext_getElem? fun key => ?_
  cases found : headers[key]? with
  | some value =>
      have member := Std.ExtTreeMap.mem_toList_iff_getElem?_eq_some.mpr found
      exact Std.ExtTreeMap.getElem?_ofList_of_mem Std.ReflCmp.compare_self
        Std.ExtTreeMap.distinct_keys_toList member
  | none =>
      apply Std.ExtTreeMap.getElem?_ofList_of_contains_eq_false
      rw [List.contains_eq_mem, decide_eq_false_iff_not]
      intro member
      obtain ⟨entry, inList, same⟩ := List.mem_map.mp member
      have present := Std.ExtTreeMap.mem_toList_iff_getElem?_eq_some.mp inList
      rw [same, found] at present
      cases present

end HeaderMap

namespace HttpResponse

def message (response : HttpResponse) : ResponseMessage where
  line := response.line
  headers := response.headers
  body := response.body

def text (response : HttpResponse) : Bytes := response.pieces.flatten

def headerLine (header : Bytes × Bytes) : Bytes := header.1 ++ ascii ": " ++ header.2

/-- No part contains what ends it. -/
structure WellFormed (response : HttpResponse) : Prop where
  line : Inline response.line
  names : ∀ name ∈ response.headers, 58 ∉ name ∧ Inline name
  values : ∀ name value : Bytes, response.headers[name]? = some value → Inline value

variable {response : HttpResponse}

private theorem text_eq (response : HttpResponse) :
    response.text = response.line ++ Buffer.kCRLF ++
      (joinLines (response.headers.toList.map headerLine) ++ Buffer.kCRLF ++ response.body) := by
  have lines : (response.headers.toList.flatMap
      fun header => [header.1, ascii ": ", header.2, Buffer.kCRLF]).flatten =
      joinLines (response.headers.toList.map headerLine) := by
    induction response.headers.toList with
    | nil => rfl
    | cons header rest ih => simp [ih, headerLine]
  simp only [text, pieces, List.flatten_append, lines]
  simp

private theorem length_le_joinLines (lines : List Bytes) : lines.length ≤ (joinLines lines).length := by
  induction lines with
  | nil => exact Nat.le_refl 0
  | cons line lines ih =>
      simp only [joinLines_cons, List.length_append, List.length_cons, Buffer.kCRLF, List.length_nil]
      omega

theorem WellFormed.field {header : Bytes × Bytes} (wellFormed : response.WellFormed)
    (member : header ∈ response.headers.toList) :
    58 ∉ header.1 ∧ Inline (headerLine header) := by
  have found := Std.ExtTreeMap.mem_toList_iff_getElem?_eq_some.mp member
  have key : header.1 ∈ response.headers := by
    rw [Std.ExtTreeMap.mem_iff_isSome_getElem?, found]
    rfl
  obtain ⟨uncoloned, name⟩ := wellFormed.names header.1 key
  exact ⟨uncoloned, (name.append (by decide)).append (wellFormed.values _ _ found)⟩

private theorem splitFirst_headerLine {header : Bytes × Bytes} (uncoloned : 58 ∉ header.1) :
    splitFirst (ascii ": ") (headerLine header) = some header :=
  splitFirst_line uncoloned

private theorem headerLine_ne_nil (header : Bytes × Bytes) : headerLine header ≠ [] := by
  have separator : ascii ": " ≠ [] := by decide
  simp [headerLine, separator]

private theorem splitFields {fields : List (Bytes × Bytes)} (uncoloned : ∀ header ∈ fields, 58 ∉ header.1) :
    (fields.map headerLine).mapM (splitFirst (ascii ": ")) = some fields := by
  induction fields with
  | nil => rfl
  | cons header rest ih =>
      have others := ih fun other member => uncoloned other (List.mem_cons_of_mem _ member)
      have first := splitFirst_headerLine (uncoloned header List.mem_cons_self)
      rw [List.map_cons, List.mapM_cons, first, others]
      rfl

/-- The text is read back, whatever the body contains. -/
theorem decode_text (wellFormed : response.WellFormed) :
    ResponseMessage.decode response.text = some response.message := by
  let fields := response.headers.toList
  have uncoloned : ∀ header ∈ fields, 58 ∉ header.1 := fun header member => (wellFormed.field member).1
  have inside : ∀ line ∈ fields.map headerLine, 13 ∉ line ∧ line ≠ [] := by
    intro line member
    obtain ⟨header, inFields, rfl⟩ := List.mem_map.mp member
    exact ⟨(wellFormed.field inFields).2.cr, headerLine_ne_nil header⟩
  have enough : (fields.map headerLine).length < response.text.length := by
    have least : fields.length ≤ (joinLines (response.headers.toList.map headerLine)).length := by
      simpa using length_le_joinLines (fields.map headerLine)
    have two : Buffer.kCRLF.length = 2 := rfl
    simp only [text_eq, List.length_append, two, List.length_map]
    omega
  have first : splitFirst Buffer.kCRLF response.text = some (response.line,
      joinLines (fields.map headerLine) ++ Buffer.kCRLF ++ response.body) := by
    rw [text_eq]
    exact splitFirst_line wellFormed.line.cr
  have headerSection : paragraph Buffer.kCRLF response.text.length
      (joinLines (fields.map headerLine) ++ Buffer.kCRLF ++ response.body) =
      some (fields.map headerLine, response.body) := paragraph_lines inside enough
  rw [ResponseMessage.decode, first]
  simp only [Option.bind_eq_bind, Option.bind_some, headerSection, splitFields uncoloned, fields, HeaderMap.ofList_toList]
  rfl

theorem WellFormed.addHeader (wellFormed : response.WellFormed) (key value : Bytes) (uncoloned : 58 ∉ key)
    (keyInline : Inline key) (valueInline : Inline value) : (response.addHeader key value).WellFormed := by
  refine ⟨wellFormed.line, fun name member => ?_, fun name other found => ?_⟩
  · rcases Std.ExtTreeMap.mem_insert.mp member with same | before
    · rw [← Std.LawfulEqCmp.eq_of_compare same]
      exact ⟨uncoloned, keyInline⟩
    · exact wellFormed.names name before
  · rw [HttpResponse.addHeader, Std.ExtTreeMap.getElem?_insert] at found
    split_ifs at found with same
    · cases found
      exact valueInline
    · exact wellFormed.values name other found

private theorem versionText_inline (version : HttpVersion) : Inline (versionText version) := by
  cases version <;> decide

/-- What the server answers is well formed. -/
theorem setResponse_wellFormed (request : HttpRequest) : (new.setResponse request).WellFormed := by
  have started : WellFormed { new with line := versionText request.version ++ ascii "200 OK", body := greeting } :=
    ⟨(versionText_inline request.version).append (by decide), by simp [new], by simp [new]⟩
  have typed := started.addHeader (ascii "Content-Type") (ascii "text/plain") (by decide) (by decide) (by decide)
  unfold setResponse
  split_ifs with close
  · have closed := typed.addHeader (ascii "Connection") (ascii "close") (by decide) (by decide) (by decide)
    exact ⟨closed.line, closed.names, closed.values⟩
  · have counted := typed.addHeader (ascii "Content-Length") (toString greeting.length)
      (by decide) (by decide) (by decide)
    have kept := counted.addHeader (ascii "Connection") (ascii "Keep-Alive") (by decide) (by decide) (by decide)
    exact ⟨kept.line, kept.names, kept.values⟩

/-- To a buffer with any history, a well-formed response is appended behind the
bytes that are there, as a text that is read back; so responses that say
different things are different texts. -/
theorem appendToBuffer_decodes (ops : List Buffer.Op) {final : Buffer.Session}
    (ran : run Buffer.Session.step Buffer.Session.fresh ops = some final)
    (wellFormed : response.WellFormed) :
    (∃ next, response.appendToBuffer final.buffer = .ok next ∧
      next.readable = final.buffer.readable ++ response.text) ∧
    ResponseMessage.decode response.text = some response.message ∧
    ∀ other : HttpResponse, other.WellFormed → other.text = response.text →
      other.message = response.message := by
  refine ⟨?_, decode_text wellFormed, ?_⟩
  · obtain ⟨next, appended, _, shown⟩ := appendToBuffer_spec (Buffer.Session.run_valid ran) response
    exact ⟨next, appended, shown⟩
  · intro other otherWellFormed same
    have decoded := decode_text otherWellFormed
    rw [same, decode_text wellFormed] at decoded
    exact (Option.some.inj decoded).symm

theorem appendToBuffer_decodes_answer :
    let ops : List Buffer.Op := [.append (ascii "ab"), .retrieve 1]
    let response := new.setResponse HttpRequest.new
    ∃ final next, run Buffer.Session.step Buffer.Session.fresh ops = some final ∧
      response.appendToBuffer final.buffer = .ok next ∧ next.readable = final.buffer.readable ++ response.text ∧
      ResponseMessage.decode response.text = some response.message := by
  intro ops response
  have ends : (run Buffer.Session.step Buffer.Session.fresh ops).isSome = true := by decide +kernel
  obtain ⟨final, ran⟩ := Option.isSome_iff_exists.mp ends
  obtain ⟨⟨next, appended, shown⟩, decoded, _⟩ :=
    appendToBuffer_decodes ops ran (setResponse_wellFormed HttpRequest.new)
  exact ⟨final, next, ran, appended, shown, decoded⟩

end HttpResponse

end NutServer.Net
