import NutServer.Net.HttpRequestProperties

/-!
# The parser and the end of the received bytes

The ranges that `parseRequest` hands to the functions behind it, for every state
of the parser and every content of the buffer.
-/

set_option autoImplicit false

namespace NutServer.Net

open Library

namespace HttpRequest

/-- The range that the next turn hands to `parseReqLine`, `parseReqHeaders` or
`ParseReqBody`. -/
def handed (text : Bytes) (locals : RequestLocals) : Option (Nat × Option Nat) :=
  match locals.request.reqParseState with
  | .exceptRequestLine => some (locals.start, searchFor Buffer.kCRLF text)
  | .exceptRequestHeaders => some (locals.start, some text.length)
  | .exceptRequestBody => some (locals.start, locals.finish)
  | .parseReqFinished => none

/-- No range that a call on this buffer hands on leaves the readable bytes, and
neither does anything that is done with it. -/
structure InBounds (nullFind : NullFind) (request : HttpRequest) (buf : Buffer) : Prop where
  ranges : ∀ locals start finish,
    Reaches (fun locals => turnOf (requestBody nullFind buf.readable locals))
      ⟨request, 0, some buf.readable.length⟩ locals →
    handed buf.readable locals = some (start, finish) →
      ∃ last, finish = some last ∧ start ≤ last ∧ buf.peek + last ≤ buf.beginWrite
  accesses : parseRequest nullFind request buf ≠ .error .range

/-- Where the pointers of a call stand, once it has found the end of the line. -/
def Placed (text : Bytes) (locals : RequestLocals) : Prop :=
  ∀ start finish, handed text locals = some (start, finish) →
    ∃ last, finish = some last ∧ start ≤ last ∧ last ≤ text.length

section Turns

variable {nullFind : NullFind} {text : Bytes} {locals next : RequestLocals} {request : HttpRequest} {buf : Buffer}

private theorem placed_start (known : request.reqParseState = .exceptRequestLine → searchFor Buffer.kCRLF text ≠ none) :
    Placed text ⟨request, 0, some text.length⟩ := by
  intro start finish isHanded
  cases state : request.reqParseState with
  | exceptRequestLine =>
      simp only [handed, state, Option.some.injEq, Prod.mk.injEq] at isHanded
      obtain ⟨rfl, rfl⟩ := isHanded
      obtain ⟨last, found⟩ := Option.ne_none_iff_exists'.mp (known state)
      have inside := searchFor_bound (by simp [Buffer.kCRLF]) found
      exact ⟨last, found, Nat.zero_le _, by omega⟩
  | exceptRequestHeaders | exceptRequestBody =>
      simp only [handed, state, Option.some.injEq, Prod.mk.injEq] at isHanded
      obtain ⟨rfl, rfl⟩ := isHanded
      exact ⟨text.length, rfl, Nat.zero_le _, Nat.le_refl _⟩
  | parseReqFinished => simp [handed, state] at isHanded

private theorem placed_again (turn : requestBody nullFind text locals = .ok (.again next)) : Placed text next := by
  intro start finish isHanded
  cases state : locals.request.reqParseState with
  | exceptRequestLine =>
      simp only [requestBody, state] at turn
      obtain ⟨⟨parsed, accepted⟩, _, turn⟩ := Outcome.bind_eq_ok_iff.mp turn
      cases accepted with
      | false => cases turn
      | true =>
          cases found : searchFor Buffer.kCRLF text with
          | none =>
              simp only [found] at turn
              cases turn
          | some last =>
              simp only [found] at turn
              cases turn
              have inside := searchFor_bound (by simp [Buffer.kCRLF]) found
              have two : Buffer.kCRLF.length = 2 := rfl
              simp only [handed, Option.some.injEq, Prod.mk.injEq] at isHanded
              obtain ⟨rfl, rfl⟩ := isHanded
              exact ⟨text.length, rfl, by omega, Nat.le_refl _⟩
  | exceptRequestHeaders =>
      simp only [requestBody, state] at turn
      obtain ⟨⟨parsed, accepted⟩, _, turn⟩ := Outcome.bind_eq_ok_iff.mp turn
      cases accepted with
      | false => cases turn
      | true =>
          cases turn
          simp only [handed, Option.some.injEq, Prod.mk.injEq] at isHanded
          obtain ⟨rfl, rfl⟩ := isHanded
          exact ⟨text.length, rfl, Nat.le_refl _, Nat.le_refl _⟩
  | exceptRequestBody =>
      simp only [requestBody, state, parseReqBody, if_true] at turn
      cases turn
      simp [handed] at isHanded
  | parseReqFinished =>
      simp only [requestBody, state] at turn
      cases turn

/-- A line that cannot be parsed is compared over and over, inside the line. -/
theorem parseText_hang {line rest : Bytes} (state : request.reqParseState = .exceptRequestLine)
    (method : request.lineParseState = .exceptMethod) (unknown : unknownWord line = true)
    (first : searchFor Buffer.kCRLF (line ++ Buffer.kCRLF ++ rest) = some line.length) :
    parseText nullFind request (line ++ Buffer.kCRLF ++ rest) = .error .hang := by
  have parsed : parseReqLine nullFind request (line ++ Buffer.kCRLF ++ rest) 0 (some (0 + line.length)) =
      .error .hang := watch_stuck (lineBody_unknownWord nullFind rfl method unknown)
  rw [Nat.zero_add] at parsed
  have turn : requestBody nullFind (line ++ Buffer.kCRLF ++ rest)
      ⟨request, 0, some (line ++ Buffer.kCRLF ++ rest).length⟩ = .error .hang := by
    simp only [requestBody, state, first, parsed]
    rfl
  simp only [parseText, watch, loop, turn, turnOf]
  rfl

private theorem parseText_inside {line rest : Bytes}
    (first : searchFor Buffer.kCRLF (line ++ Buffer.kCRLF ++ rest) = some line.length) :
    parseText nullFind request (line ++ Buffer.kCRLF ++ rest) ≠ .error .range := by
  by_cases stuck : request.reqParseState = .exceptRequestLine ∧ request.lineParseState = .exceptMethod ∧
      unknownWord line = true
  · rw [parseText_hang stuck.1 stuck.2.1 stuck.2.2 first]
    simp
  · obtain ⟨result, returned⟩ := (parseText_returns_iff first).mpr stuck
    rw [returned]
    simp

private theorem parseText_later (later : request.reqParseState ≠ .exceptRequestLine) :
    parseText nullFind request text ≠ .error .range := by
  obtain ⟨lines, tail, cut⟩ := exists_cutInto text
  cases state : request.reqParseState with
  | exceptRequestLine => exact absurd state later
  | exceptRequestHeaders =>
      rw [parseText_headers nullFind state cut]
      simp
  | exceptRequestBody =>
      rw [parseText_body state]
      simp
  | parseReqFinished =>
      rw [parseText_finished state]
      simp

end Turns

private theorem findCRLF_eq_none_iff {buf : Buffer} :
    buf.findCRLF = none ↔ searchFor Buffer.kCRLF buf.readable = none := Option.map_eq_none_iff

/-- Whatever the buffer holds and whatever state the parser is in: a call stays
inside the received bytes exactly when it does not start at a request line whose
end has yet to be received. -/
theorem inBounds_iff (nullFind : NullFind) (request : HttpRequest) {buf : Buffer} (valid : buf.Valid) :
    InBounds nullFind request buf ↔ (request.reqParseState = .exceptRequestLine → buf.findCRLF ≠ none) := by
  constructor
  · intro inside state missing
    obtain ⟨last, isLast, -⟩ := inside.ranges ⟨request, 0, some buf.readable.length⟩ 0
      (searchFor Buffer.kCRLF buf.readable) .here (by simp only [handed, state])
    rw [findCRLF_eq_none_iff.mp missing] at isLast
    cases isLast
  · intro known
    refine ⟨fun locals start finish reached isHanded => ?_, ?_⟩
    · have placed := reached.preserves (Placed buf.readable)
        (placed_start fun state => mt findCRLF_eq_none_iff.mpr (known state))
        fun locals next _ turn => placed_again (turnOf_eq_again_iff.mp turn)
      obtain ⟨last, isLast, ordered, within⟩ := placed start finish isHanded
      refine ⟨last, isLast, ordered, ?_⟩
      rw [valid.length_readable, valid.readableBytes_eq] at within
      have := valid.ordered
      simp only [Buffer.peek, Buffer.beginWrite]
      omega
    · rw [parseRequest_eq valid]
      by_cases state : request.reqParseState = .exceptRequestLine
      · obtain ⟨position, found⟩ := Option.ne_none_iff_exists'.mp (known state)
        obtain ⟨rest, readable, first⟩ := findCRLF_cut found
        rw [readable] at first ⊢
        exact parseText_inside first
      · exact parseText_later state

/-- A whole request in the buffer of a fresh connection. -/
theorem inBounds_iff_whole :
    InBounds .undefined new ⟨ascii "GET / HTTP/1.1\r\n\r\n", 0, 18⟩ := by
  have valid : Buffer.Valid ⟨ascii "GET / HTTP/1.1\r\n\r\n", 0, 18⟩ := ⟨by decide, by decide, by decide⟩
  exact (inBounds_iff .undefined new valid).mpr fun _ => by decide

/-- The first bytes of a request line are handed on with a null end pointer. -/
theorem not_inBounds_cut : ¬ InBounds .returnsLast new ⟨ascii "GE", 0, 2⟩ := by
  intro inside
  obtain ⟨last, isLast, -⟩ := inside.ranges ⟨new, 0, some 2⟩ 0 none .here rfl
  cases isLast

end HttpRequest

end NutServer.Net
