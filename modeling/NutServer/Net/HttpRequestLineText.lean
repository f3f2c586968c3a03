import NutServer.Net.RequestText

/-!
# Request lines as texts

The lines that `parseReqLine` accepts are a method, a space, the URI, a space
and anything that the version can be read from.
-/

set_option autoImplicit false

namespace NutServer.Net

open Library

namespace HttpRequest

variable {line : Bytes} {request next : HttpRequest} {count : Nat} {words : List (Bytes × Method)}

private theorem word_of_methodWords (known : methodWords count = some words) :
    ∀ word ∈ words, word.1 = word.2.word ∧ word.1.length = count := by
  unfold methodWords at known
  split at known <;> cases known <;> decide

private theorem methodOn_eq_some {method : Method} (known : methodWords count = some words)
    (selected : methodOn line words = some method) : method.word <+: line ∧ method.word.length = count := by
  obtain ⟨word, found, rfl⟩ := Option.map_eq_some_iff.mp selected
  obtain ⟨same, length⟩ := word_of_methodWords known word (List.mem_of_find?_eq_some found)
  have begins := List.find?_some found
  rw [← same]
  exact ⟨List.isPrefixOf_iff_prefix.mp begins, length⟩

private theorem versionOn_spec (word : Bytes) :
    (versionOn word = .http10 ↔ ascii "HTTP/1.0" <+: word) ∧
      (versionOn word = .http11 ↔ ascii "HTTP/1.1" <+: word) ∧
      (versionOn word = .http09 ↔ ¬ ascii "HTTP/1.0" <+: word ∧ ¬ ascii "HTTP/1.1" <+: word) := by
  have apart : ascii "HTTP/1.0" <+: word → ¬ ascii "HTTP/1.1" <+: word := by
    intro older newer
    have same := List.prefix_of_prefix_length_le older newer (Nat.le_refl 8)
    revert same
    decide
  simp only [versionOn, List.isPrefixOf_iff_prefix]
  by_cases older : ascii "HTTP/1.0" <+: word
  · simp [older, apart older]
  · by_cases newer : ascii "HTTP/1.1" <+: word <;> simp [older, newer]

/-- The line that a request was read from. -/
structure ReadFrom (line : Bytes) (next : HttpRequest) (method : Method) (word : Bytes) : Prop where
  chosen : next.method = some method
  parts : line = method.word ++ [32] ++ next.uri ++ [32] ++ word
  unspaced : 32 ∉ next.uri
  older : next.version = .http10 ↔ ascii "HTTP/1.0" <+: word
  newer : next.version = .http11 ↔ ascii "HTTP/1.1" <+: word
  oldest : next.version = .http09 ↔ ¬ ascii "HTTP/1.0" <+: word ∧ ¬ ascii "HTTP/1.1" <+: word

private theorem readFrom_of_lineOutcome (fresh : request.lineParseState = .exceptMethod)
    (outcome : request.lineOutcome line = (next, true)) : ∃ method word, ReadFrom line next method word := by
  simp only [lineOutcome, fresh] at outcome
  cases found : line.idxOf? 32 with
  | none => simp [found] at outcome
  | some space =>
      simp only [found] at outcome
      cases known : methodWords space with
      | none => simp [known] at outcome
      | some words =>
          simp only [known] at outcome
          cases selected : methodOn line words with
          | none => simp [selected] at outcome
          | some method =>
              simp only [selected, lineOutcome.uriOutcome] at outcome
              obtain ⟨begins, length⟩ := methodOn_eq_some known selected
              obtain ⟨whole, _⟩ := split_of_idxOf? found
              cases behind : (line.drop (space + 1)).idxOf? 32 with
              | none => simp [behind] at outcome
              | some uriSpace =>
                  simp only [behind, lineOutcome.versionOutcome, Prod.mk.injEq, and_true] at outcome
                  subst outcome
                  obtain ⟨rest, unspaced⟩ := split_of_idxOf? behind
                  obtain ⟨older, newer, oldest⟩ := versionOn_spec ((line.drop (space + 1)).drop (uriSpace + 1))
                  have first : line.take space = method.word := by
                    rw [← length]
                    exact (List.prefix_iff_eq_take.mp begins).symm
                  refine ⟨method, _, rfl, ?_, unspaced, older, newer, oldest⟩
                  calc line = method.word ++ 32 :: line.drop (space + 1) := by rw [← first]; exact whole
                    _ = method.word ++ 32 :: ((line.drop (space + 1)).take uriSpace ++
                          32 :: (line.drop (space + 1)).drop (uriSpace + 1)) := by rw [← rest]
                    _ = _ := by simp

/-- The loop does not come back from a word that it does not know. -/
theorem parseReqLine_unknownWord (nullFind : NullFind) {text rest : Bytes} {begin : Nat}
    (cut : text.drop begin = line ++ Buffer.kCRLF ++ rest) (fresh : request.lineParseState = .exceptMethod)
    (unknown : unknownWord line = true) :
    parseReqLine nullFind request text begin (some (begin + line.length)) = .error .hang :=
  watch_stuck (lineBody_unknownWord nullFind cut fresh unknown)

/-- A line of a method, a URI without spaces and a version is accepted with
these three, and every accepted line is a method, a URI without spaces and a
word that begins with the version, or else is read as `HTTP/0.9`. -/
theorem parseReqLine_accepts (nullFind : NullFind) (text rest : Bytes) (begin : Nat) :
    (∀ (method : Method) (uri : Bytes) (version : HttpVersion), Inline uri → 32 ∉ uri → version ≠ .http09 →
      ∀ line, line = method.word ++ [32] ++ uri ++ [32] ++ RequestText.versionWord version →
        text.drop begin = line ++ Buffer.kCRLF ++ rest →
        ∃ next, parseReqLine nullFind new text begin (some (begin + line.length)) = .ok (next, true) ∧
          next.method = some method ∧ next.uri = uri ∧ next.version = version) ∧
    ∀ (line : Bytes) (next : HttpRequest), text.drop begin = line ++ Buffer.kCRLF ++ rest →
      parseReqLine nullFind new text begin (some (begin + line.length)) = .ok (next, true) →
      ∃ method word, ReadFrom line next method word := by
  constructor
  · rintro method uri version inline unspaced versioned line rfl cut
    let written : RequestText := ⟨method, uri, version, [], inline, unspaced, versioned⟩
    have parsed : parseReqLine nullFind new text begin (some (begin + written.requestLine.length)) =
        .ok (new.lineOutcome written.requestLine) :=
      parseReqLine_spec nullFind cut fun _ => written.unknownWord_requestLine
    exact ⟨_, parsed.trans (congrArg Except.ok written.lineOutcome_requestLine), rfl, rfl, rfl⟩
  · intro line next cut accepted
    cases unknown : unknownWord line with
    | true =>
        rw [parseReqLine_unknownWord nullFind cut rfl unknown] at accepted
        cases accepted
    | false =>
        rw [parseReqLine_spec nullFind cut fun _ => unknown] at accepted
        exact readFrom_of_lineOutcome rfl (Except.ok.inj accepted)

theorem parseReqLine_accepts_get :
    let text := ascii "GET /a HTTP/1.1\r\n\r\n"
    ∃ next, parseReqLine .undefined new text 0 (some (0 + 15)) = .ok (next, true) ∧
      next.uri = ascii "/a" ∧ ∃ method word, ReadFrom (ascii "GET /a HTTP/1.1") next method word := by
  intro text
  obtain ⟨complete, sound⟩ := parseReqLine_accepts .undefined text (ascii "\r\n") 0
  obtain ⟨next, accepted, _, uri, _⟩ := complete .methodGet (ascii "/a") .http11 (by decide) (by decide) (by decide)
    (ascii "GET /a HTTP/1.1") (by decide) (by decide)
  exact ⟨next, accepted, uri, sound (ascii "GET /a HTTP/1.1") next (by decide) accepted⟩

end HttpRequest

end NutServer.Net
