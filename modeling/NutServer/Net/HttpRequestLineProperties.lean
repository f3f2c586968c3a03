import NutServer.Net.HttpData

/-! The request line. On a range that ends at a CRLF the loop over the four
line states either returns what the line says or repeats one turn for ever, and
the second happens exactly for a word of a known length that is no method. -/

set_option autoImplicit false

namespace NutServer.Net

open Library

section Range

variable {text front tail : Bytes} {begin : Nat}

private theorem bytesBetween_of_drop (inside : begin ≤ text.length) (cut : text.drop begin = front ++ tail) :
    Buffer.bytesBetween text begin (begin + front.length) = .ok front := by
  have lengths := congrArg List.length cut
  simp only [List.length_drop, List.length_append] at lengths
  rw [Buffer.bytesBetween, if_pos ⟨by omega, by omega⟩, slice, List.drop_take, cut,
    Nat.add_sub_cancel_left, List.take_left]

theorem stdFind_of_drop (nullFind : NullFind) (char : UInt8) (inside : begin ≤ text.length)
    (cut : text.drop begin = front ++ tail) :
    stdFind nullFind text begin char (some (begin + front.length)) =
      .ok ((front.idxOf? char).map (begin + ·)) := by
  simp [stdFind, bytesBetween_of_drop inside cut, pure, Except.pure]

/-- A comparison with a literal is decided inside the received bytes as soon as
these contain a byte that the literal does not. -/
theorem strncmp_of_stop {bytes literal : Bytes} {stop : UInt8} (present : stop ∈ bytes)
    (foreign : stop ∉ literal) : strncmp bytes literal = .ok (literal.isPrefixOf bytes) := by
  induction literal generalizing bytes with
  | nil => simp [strncmp]
  | cons char literal ih =>
      simp only [List.mem_cons, not_or] at foreign
      cases bytes with
      | nil => simp at present
      | cons byte bytes =>
          rw [strncmp]
          split_ifs with same
          · subst same
            have later : stop ∈ bytes := (List.mem_cons.mp present).resolve_left foreign.1
            rw [ih later foreign.2]
            simp [List.isPrefixOf]
          · simp [List.isPrefixOf, Ne.symm same]

end Range

namespace HttpRequest

/-- A literal without a CR is a prefix of the line or of nothing. -/
theorem isPrefixOf_line {literal : Bytes} (line rest : Bytes) (foreign : (13 : UInt8) ∉ literal) :
    literal.isPrefixOf (line ++ Buffer.kCRLF ++ rest) = literal.isPrefixOf line := by
  induction literal generalizing line with
  | nil => simp
  | cons char literal ih =>
      simp only [List.mem_cons, not_or] at foreign
      cases line with
      | nil => simp [Buffer.kCRLF, List.isPrefixOf, Ne.symm foreign.1]
      | cons byte line =>
          have others := ih line foreign.2
          simp only [List.cons_append, List.isPrefixOf, others]

private theorem strncmp_line {literal : Bytes} (line rest : Bytes) (foreign : (13 : UInt8) ∉ literal) :
    strncmp (line ++ Buffer.kCRLF ++ rest) literal = .ok (literal.isPrefixOf line) := by
  rw [strncmp_of_stop (by simp [Buffer.kCRLF]) foreign, isPrefixOf_line _ _ foreign]

private theorem methodWords_spec {count : Nat} {words : List (Bytes × Method)}
    (known : methodWords count = some words) :
    ∀ word ∈ words, word.1.length = count ∧ (13 : UInt8) ∉ word.1 := by
  unfold methodWords at known
  split at known <;> cases known <;> decide

def methodOn (line : Bytes) (words : List (Bytes × Method)) : Option Method :=
  (words.find? fun word => word.1.isPrefixOf line).map Prod.snd

private theorem matchMethod_line {text line rest : Bytes} {begin : Nat}
    (cut : text.drop begin = line ++ Buffer.kCRLF ++ rest) {words : List (Bytes × Method)}
    (foreign : ∀ word ∈ words, (13 : UInt8) ∉ word.1) :
    matchMethod text begin words = .ok (methodOn line words) := by
  induction words with
  | nil => rfl
  | cons word words ih =>
      have others := ih fun other member => foreign other (List.mem_cons_of_mem _ member)
      rw [matchMethod, cut, strncmp_line _ _ (foreign word List.mem_cons_self)]
      cases selected : word.1.isPrefixOf line with
      | true => simp [methodOn, selected, pure, Except.pure]
      | false => simpa [methodOn, selected] using others

/-- The first word has the length of a method and is none of that length. -/
def unknownWord (line : Bytes) : Bool :=
  match line.idxOf? 32 with
  | none => false
  | some space =>
      match methodWords space with
      | none => false
      | some words => (methodOn line words).isNone

def versionOn (line : Bytes) : HttpVersion :=
  if (ascii "HTTP/1.0").isPrefixOf line then .http10
  else if (ascii "HTTP/1.1").isPrefixOf line then .http11
  else .http09

/-- What the rest of the loop returns on the rest of the line. -/
def lineOutcome (request : HttpRequest) (line : Bytes) : HttpRequest × Bool :=
  match request.lineParseState with
  | .exceptMethod =>
      match line.idxOf? 32 with
      | none => (request, false)
      | some space =>
          match methodWords space with
          | none => (request, false)
          | some words =>
              match methodOn line words with
              | none => (request, false)
              | some method => uriOutcome { request with method := some method, lineParseState := .exceptUri }
                  (line.drop (space + 1))
  | .exceptUri => uriOutcome request line
  | .exceptVer => versionOutcome request line
  | .parseLineFinished => (request, true)
where
  uriOutcome (request : HttpRequest) (line : Bytes) : HttpRequest × Bool :=
    match line.idxOf? 32 with
    | none => (request, false)
    | some space => versionOutcome { request with uri := line.take space, lineParseState := .exceptVer }
        (line.drop (space + 1))
  versionOutcome (request : HttpRequest) (line : Bytes) : HttpRequest × Bool :=
    ({ request with version := versionOn line, lineParseState := .parseLineFinished }, true)

section Loop

variable {nullFind : NullFind} {text line rest : Bytes} {begin : Nat} {request : HttpRequest}
  {turns : Nat}

private theorem begin_le_of_cut (cut : text.drop begin = line ++ Buffer.kCRLF ++ rest) :
    begin ≤ text.length := by
  have lengths := congrArg List.length cut
  simp only [List.length_drop, List.length_append, Buffer.kCRLF, List.length_cons] at lengths
  omega

private theorem cut_behind {space : Nat} (cut : text.drop begin = line ++ Buffer.kCRLF ++ rest)
    (found : line.idxOf? 32 = some space) :
    text.drop (begin + space + 1) = line.drop (space + 1) ++ Buffer.kCRLF ++ rest ∧
      begin + space + 1 + (line.drop (space + 1)).length = begin + line.length := by
  obtain ⟨inside, _⟩ := List.idxOf?_eq_some_iff.mp found
  constructor
  · rw [Nat.add_assoc, ← List.drop_drop, cut, List.append_assoc,
      List.drop_append_of_le_length (by omega), List.append_assoc]
  · rw [List.length_drop]
    omega

private theorem watch_finished {start : Nat} {finish : Option Nat}
    (state : request.lineParseState = .parseLineFinished) :
    watch (lineBody nullFind text start finish) (turns + 1) ⟨request, begin⟩ = .ok (request, true) :=
  watch_leave (by simp only [lineBody, state]; rfl)

private theorem watch_exceptVer {start : Nat} {finish : Option Nat}
    (cut : text.drop begin = line ++ Buffer.kCRLF ++ rest)
    (state : request.lineParseState = .exceptVer) :
    watch (lineBody nullFind text start finish) (turns + 2) ⟨request, begin⟩ =
      .ok (lineOutcome.versionOutcome request line) := by
  have turn : lineBody nullFind text start finish ⟨request, begin⟩ = .ok (.again
      ⟨{ request with version := versionOn line, lineParseState := .parseLineFinished }, begin⟩) := by
    have older := strncmp_line line rest
      (show (13 : UInt8) ∉ ascii "HTTP/1.0" by decide)
    have newer := strncmp_line line rest
      (show (13 : UInt8) ∉ ascii "HTTP/1.1" by decide)
    simp only [lineBody, state, cut, older, newer, versionOn]
    cases (ascii "HTTP/1.0").isPrefixOf line <;> cases (ascii "HTTP/1.1").isPrefixOf line <;> rfl
  rw [watch_again turn, watch_finished rfl]
  rfl

private theorem watch_exceptUri {start : Nat} (cut : text.drop begin = line ++ Buffer.kCRLF ++ rest)
    (state : request.lineParseState = .exceptUri) :
    watch (lineBody nullFind text start (some (begin + line.length))) (turns + 3) ⟨request, begin⟩ =
      .ok (lineOutcome.uriOutcome request line) := by
  have inside := begin_le_of_cut cut
  rw [List.append_assoc] at cut
  have searched := stdFind_of_drop nullFind 32 inside cut
  rw [← List.append_assoc] at cut
  cases found : line.idxOf? 32 with
  | none =>
      have turn : lineBody nullFind text start (some (begin + line.length)) ⟨request, begin⟩ =
          .ok (.leave (request, false)) := by
        simp only [lineBody, state, searched, found]
        rfl
      rw [watch_leave turn]
      simp only [lineOutcome.uriOutcome, found]
  | some space =>
      obtain ⟨behind, _⟩ := cut_behind cut found
      have uri : slice text begin (begin + space) = line.take space := by
        obtain ⟨inLine, _⟩ := List.idxOf?_eq_some_iff.mp found
        rw [slice, List.drop_take, cut, List.append_assoc, Nat.add_sub_cancel_left,
          List.take_append_of_le_length (by omega)]
      have turn : lineBody nullFind text start (some (begin + line.length)) ⟨request, begin⟩ =
          .ok (.again ⟨{ request with uri := line.take space, lineParseState := .exceptVer },
            begin + space + 1⟩) := by
        simp only [lineBody, state, searched, found, Option.map_some, Outcome.ok_bind, uri]
        rfl
      rw [watch_again turn, watch_exceptVer behind rfl]
      simp only [lineOutcome.uriOutcome, found]

private theorem lineBody_exceptMethod (nullFind : NullFind) (cut : text.drop begin = line ++ Buffer.kCRLF ++ rest)
    (state : request.lineParseState = .exceptMethod) :
    lineBody nullFind text begin (some (begin + line.length)) ⟨request, begin⟩ =
      match line.idxOf? 32 with
      | none => .ok (.leave (request, false))
      | some space =>
          match methodWords space with
          | none => .ok (.leave (request, false))
          | some words =>
              match methodOn line words with
              | none => .ok (.again ⟨request, begin⟩)
              | some method => .ok (.again ⟨{ request with
                  method := some method, lineParseState := .exceptUri }, begin + space + 1⟩) := by
  have inside := begin_le_of_cut cut
  rw [List.append_assoc] at cut
  have searched := stdFind_of_drop nullFind 32 inside cut
  rw [← List.append_assoc] at cut
  simp only [lineBody, state, searched]
  cases line.idxOf? 32 with
  | none => rfl
  | some space =>
      simp only [Option.map_some, Outcome.ok_bind, Nat.add_sub_cancel_left]
      cases known : methodWords space with
      | none => rfl
      | some words =>
          simp only [matchMethod_line cut fun word member => (methodWords_spec known word member).2]
          cases methodOn line words <;> rfl

/-- On a range that ends at a CRLF `parseReqLine` returns what the line says,
unless it starts at a word of a method's length that is no method. -/
theorem parseReqLine_spec (nullFind : NullFind) (cut : text.drop begin = line ++ Buffer.kCRLF ++ rest)
    (known : request.lineParseState = .exceptMethod → unknownWord line = false) :
    parseReqLine nullFind request text begin (some (begin + line.length)) =
      .ok (request.lineOutcome line) := by
  rw [parseReqLine]
  cases state : request.lineParseState with
  | parseLineFinished => rw [watch_finished state]; simp only [lineOutcome, state]
  | exceptVer => rw [watch_exceptVer cut state]; simp only [lineOutcome, state]
  | exceptUri => rw [watch_exceptUri cut state]; simp only [lineOutcome, state]
  | exceptMethod =>
      have turn := lineBody_exceptMethod nullFind cut state
      have decided := known state
      simp only [unknownWord] at decided
      simp only [lineOutcome, state]
      cases found : line.idxOf? 32 with
      | none => exact watch_leave (by rw [turn, found])
      | some space =>
          simp only [found] at decided turn ⊢
          cases cases_ : methodWords space with
          | none => exact watch_leave (by rw [turn, cases_])
          | some words =>
              simp only [cases_] at decided turn ⊢
              cases selected : methodOn line words with
              | none => simp [selected] at decided
              | some method =>
                  obtain ⟨behind, upTo⟩ := cut_behind cut found
                  rw [watch_again (by rw [turn, selected]), ← upTo, watch_exceptUri behind rfl]

theorem lineBody_unknownWord (nullFind : NullFind) (cut : text.drop begin = line ++ Buffer.kCRLF ++ rest)
    (state : request.lineParseState = .exceptMethod) (unknown : unknownWord line = true) :
    lineBody nullFind text begin (some (begin + line.length)) ⟨request, begin⟩ = .ok (.again ⟨request, begin⟩) := by
  rw [lineBody_exceptMethod nullFind cut state]
  simp only [unknownWord] at unknown
  cases found : line.idxOf? 32 with
  | none => simp [found] at unknown
  | some space =>
      simp only [found] at unknown ⊢
      cases known : methodWords space with
      | none => simp [known] at unknown
      | some words =>
          simp only [known] at unknown ⊢
          rw [Option.isNone_iff_eq_none.mp unknown]

/-- The loop never leaves a word that it keeps comparing without success. -/
theorem not_finishes_of_unknownWord (cut : text.drop begin = line ++ Buffer.kCRLF ++ rest)
    (state : request.lineParseState = .exceptMethod) (unknown : unknownWord line = true) :
    ¬ Finishes (lineBody nullFind text begin (some (begin + line.length))) ⟨request, begin⟩ :=
  not_finishes_of_stuck (lineBody_unknownWord nullFind cut state unknown)

theorem parseReqLine_finishes_iff (cut : text.drop begin = line ++ Buffer.kCRLF ++ rest) :
    Finishes (lineBody nullFind text begin (some (begin + line.length))) ⟨request, begin⟩ ↔
      ¬ (request.lineParseState = .exceptMethod ∧ unknownWord line = true) := by
  constructor
  · rintro finishes ⟨state, unknown⟩
    exact not_finishes_of_unknownWord cut state unknown finishes
  · intro known
    have returned := parseReqLine_spec nullFind cut
      (fun state => Bool.eq_false_iff.mpr fun unknown => known ⟨state, unknown⟩)
    exact finishes_of_watch returned

end Loop

end HttpRequest

end NutServer.Net
