import NutServer.Net.HttpRequestHeadersProperties

/-!
# Well-formed request texts

A request without a body as a client writes it, and how its bytes are cut into
lines. The fields carry what makes the text well formed.
-/

set_option autoImplicit false

namespace NutServer.Net

open Library

def Method.word : Method → Bytes
  | .methodGet => ascii "GET"
  | .methodHead => ascii "HEAD"
  | .methodPut => ascii "PUT"
  | .methodPost => ascii "POST"
  | .methodTrace => ascii "TRACE"
  | .methodOptions => ascii "OPTIONS"
  | .methodDelete => ascii "DELETE"

def Inline (line : Bytes) : Prop := ∀ byte ∈ line, byte ≠ 13 ∧ byte ≠ 10

instance decidableInline (line : Bytes) : Decidable (Inline line) :=
  List.decidableBAll (fun byte => byte ≠ 13 ∧ byte ≠ 10) line

structure HeaderField where
  name : Bytes
  value : Bytes
  named : name ≠ []
  nameInline : Inline name
  valueInline : Inline value

def HeaderField.line (field : HeaderField) : Bytes := field.name ++ ascii ": " ++ field.value

structure RequestText where
  method : Method
  uri : Bytes
  version : HttpVersion
  fields : List HeaderField
  uriInline : Inline uri
  unspaced : 32 ∉ uri
  versioned : version ≠ .http09

def joinLines (lines : List Bytes) : Bytes := lines.flatMap (· ++ Buffer.kCRLF)

namespace RequestText

def versionWord : HttpVersion → Bytes
  | .http09 => ascii "HTTP/0.9"
  | .http10 => ascii "HTTP/1.0"
  | .http11 => ascii "HTTP/1.1"

def requestLine (text : RequestText) : Bytes :=
  text.method.word ++ [32] ++ text.uri ++ [32] ++ versionWord text.version

def fieldLines (text : RequestText) : List Bytes := text.fields.map HeaderField.line

/-- The header section with the empty line that ends it. -/
def headerSection (text : RequestText) : Bytes := joinLines (text.fieldLines ++ [[]])

def bytes (text : RequestText) : Bytes := text.requestLine ++ Buffer.kCRLF ++ text.headerSection

end RequestText

/-- `GET / HTTP/1.1` with the one field `Host: a`. -/
def RequestText.hostRequest : RequestText where
  method := .methodGet
  uri := ascii "/"
  version := .http11
  fields := [{
    name := ascii "Host"
    value := ascii "a"
    named := by decide
    nameInline := by decide
    valueInline := by decide }]
  uriInline := by decide
  unspaced := by decide
  versioned := by decide

section Lines

variable {line rest tail : Bytes} {lines : List Bytes}

theorem Inline.append {first second : Bytes} (left : Inline first) (right : Inline second) :
    Inline (first ++ second) := fun byte member =>
  (List.mem_append.mp member).elim (left byte) (right byte)

theorem Inline.cr (inline : Inline line) : 13 ∉ line := fun member => (inline 13 member).1 rfl

theorem Inline.lf (inline : Inline line) : 10 ∉ line := fun member => (inline 10 member).2 rfl

@[simp] theorem joinLines_nil : joinLines [] = [] := rfl

@[simp] theorem joinLines_cons : joinLines (line :: lines) = line ++ Buffer.kCRLF ++ joinLines lines := rfl

theorem searchFor_inline (rest : Bytes) (inline : Inline line) :
    searchFor Buffer.kCRLF (line ++ Buffer.kCRLF ++ rest) = some line.length :=
  searchFor_line inline.cr

theorem searchFor_unfinished (unfinished : 10 ∉ tail) : searchFor Buffer.kCRLF tail = none :=
  searchFor_eq_none (by decide) unfinished

/-- Inline lines are what the line ends cut their text into. -/
theorem cutInto_joinLines (inline : ∀ line ∈ lines, Inline line) (unfinished : 10 ∉ tail) :
    CutInto (joinLines lines ++ tail) lines tail := by
  induction lines with
  | nil => exact .last (searchFor_unfinished unfinished)
  | cons line lines ih =>
      have others := ih fun other member => inline other (List.mem_cons_of_mem _ member)
      rw [joinLines_cons, List.append_assoc]
      exact .line (searchFor_inline _ (inline line List.mem_cons_self)) others

/-- A line that misses the end of its line end has no LF yet. -/
theorem unfinished_of_missing {received missing : Bytes} (inline : Inline line)
    (split : line ++ Buffer.kCRLF = received ++ missing) (some : missing ≠ []) : 10 ∉ received := by
  obtain ⟨init, last, rfl⟩ := List.eq_nil_or_concat missing |>.resolve_left some
  have ends : (line ++ [13]) ++ [10] = (received ++ init) ++ [last] := by
    simpa [Buffer.kCRLF] using split
  have same := (List.append_inj' ends rfl).1
  intro member
  have inLine : (10 : UInt8) ∈ line ++ [13] := same ▸ List.mem_append_left _ member
  rcases List.mem_append.mp inLine with early | cr
  · exact inline.lf early
  · cases List.mem_singleton.mp cr

/-- A proper prefix of a text of lines is some of the lines, complete, and the
beginning of the next one. -/
theorem prefix_joinLines {received more : Bytes} (inline : ∀ line ∈ lines, Inline line)
    (split : joinLines lines = received ++ more) (proper : more ≠ []) :
    ∃ before line after tail, lines = before ++ line :: after ∧
      received = joinLines before ++ tail ∧ 10 ∉ tail := by
  induction lines generalizing received with
  | nil => exact absurd (List.append_eq_nil_iff.mp split.symm).2 proper
  | cons line lines ih =>
      have others := fun other member => inline other (List.mem_cons_of_mem line member)
      rw [joinLines_cons] at split
      rcases List.append_eq_append_iff.mp split with ⟨further, rfl, rest⟩ | ⟨missing, complete, rest⟩
      · obtain ⟨before, next, after, tail, rfl, rfl, unfinished⟩ := ih others rest
        exact ⟨line :: before, next, after, tail, rfl, by simp, unfinished⟩
      · rcases List.eq_nil_or_concat missing with rfl | missingSome
        · obtain ⟨before, next, after, tail, rfl, nothing, unfinished⟩ :=
            ih others (show joinLines lines = [] ++ more from rest.symm)
          refine ⟨line :: before, next, after, tail, rfl, ?_, unfinished⟩
          rw [joinLines_cons, List.append_assoc, ← nothing, complete, List.append_nil, List.append_nil]
        · refine ⟨[], line, lines, received, rfl, rfl, unfinished_of_missing
            (inline line List.mem_cons_self) complete ?_⟩
          obtain ⟨init, last, rfl⟩ := missingSome
          simp

end Lines

theorem HeaderField.line_inline (field : HeaderField) : Inline field.line :=
  (field.nameInline.append (by decide)).append field.valueInline

theorem HeaderField.length_line (field : HeaderField) : 2 < field.line.length := by
  have named := List.length_pos_iff.mpr field.named
  have separator : (ascii ": ").length = 2 := rfl
  simp only [HeaderField.line, List.length_append, separator]
  omega

namespace RequestText

variable (text : RequestText)

private theorem word_inline (method : Method) : Inline method.word := by
  cases method <;> decide

private theorem versionWord_inline (version : HttpVersion) : Inline (versionWord version) := by
  cases version <;> decide

theorem requestLine_inline : Inline text.requestLine :=
  ((((word_inline _).append (by decide)).append text.uriInline).append (by decide)).append
    (versionWord_inline _)

theorem fieldLines_inline : ∀ line ∈ text.fieldLines, Inline line := by
  intro line member
  obtain ⟨field, _, rfl⟩ := List.mem_map.mp member
  exact field.line_inline

theorem fieldLines_long : ∀ line ∈ text.fieldLines, 2 < line.length := by
  intro line member
  obtain ⟨field, _, rfl⟩ := List.mem_map.mp member
  exact field.length_line

theorem bytes_eq_joinLines : text.bytes = joinLines (text.requestLine :: (text.fieldLines ++ [[]])) := rfl

theorem lines_inline : ∀ line ∈ text.requestLine :: (text.fieldLines ++ [[]]), Inline line := by
  simp only [List.mem_cons, List.mem_append, List.not_mem_nil, or_false]
  rintro line (rfl | field | rfl)
  · exact text.requestLine_inline
  · exact text.fieldLines_inline line field
  · exact nofun

theorem requestLine_eq : text.requestLine =
    text.method.word ++ 32 :: (text.uri ++ 32 :: versionWord text.version) := by
  simp [requestLine]

private theorem idxOf?_requestLine : text.requestLine.idxOf? 32 = some text.method.word.length := by
  have absent : 32 ∉ text.method.word := by cases text.method <;> decide
  rw [requestLine_eq, idxOf?_append_cons absent]

private theorem methodOn_word (method : Method) (rest : Bytes) :
    ∃ words, HttpRequest.methodWords method.word.length = some words ∧
      HttpRequest.methodOn (method.word ++ rest) words = some method := by
  cases method <;> exact ⟨_, rfl, rfl⟩

private theorem versionOn_versionWord {version : HttpVersion} (versioned : version ≠ .http09) :
    HttpRequest.versionOn (versionWord version) = version := by
  cases version with
  | http09 => exact absurd rfl versioned
  | http10 => rfl
  | http11 => rfl

theorem lineOutcome_requestLine :
    HttpRequest.new.lineOutcome text.requestLine = ({ HttpRequest.new with
      method := some text.method
      uri := text.uri
      version := text.version
      lineParseState := .parseLineFinished }, true) := by
  obtain ⟨words, known, selected⟩ :=
    methodOn_word text.method (32 :: (text.uri ++ 32 :: versionWord text.version))
  have dropWord : text.requestLine.drop (text.method.word.length + 1) =
      text.uri ++ 32 :: versionWord text.version := by
    rw [requestLine_eq, ← List.drop_drop, List.drop_left]
    rfl
  have dropUri : (text.uri ++ 32 :: versionWord text.version).drop (text.uri.length + 1) =
      versionWord text.version := by
    rw [← List.drop_drop, List.drop_left]
    rfl
  rw [← requestLine_eq] at selected
  simp only [HttpRequest.lineOutcome, HttpRequest.new, idxOf?_requestLine, known, selected, dropWord,
    HttpRequest.lineOutcome.uriOutcome, idxOf?_append_cons text.unspaced, List.take_left, dropUri,
    HttpRequest.lineOutcome.versionOutcome, versionOn_versionWord text.versioned]

theorem unknownWord_requestLine : HttpRequest.unknownWord text.requestLine = false := by
  obtain ⟨words, known, selected⟩ :=
    methodOn_word text.method (32 :: (text.uri ++ 32 :: versionWord text.version))
  rw [← requestLine_eq] at selected
  simp only [HttpRequest.unknownWord, idxOf?_requestLine, known, selected, Option.isNone_some]

end RequestText

end NutServer.Net
