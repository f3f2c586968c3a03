import NutServer.Net.HttpRequestLineProperties

/-! The header section. The loop is followed on the lines into which the line
ends cut the received bytes: it always leaves, it enters one field for each
line it consumes, and it accepts when a line of at most two bytes follows one
of them. -/

set_option autoImplicit false

namespace NutServer.Net

open Library

/-- `text` is cut into complete lines and a last part without a line end. -/
inductive CutInto : Bytes → List Bytes → Bytes → Prop where
  | last {tail : Bytes} : searchFor Buffer.kCRLF tail = none → CutInto tail [] tail
  | line {head rest : Bytes} {lines : List Bytes} {tail : Bytes} :
      searchFor Buffer.kCRLF (head ++ Buffer.kCRLF ++ rest) = some head.length →
      CutInto rest lines tail → CutInto (head ++ Buffer.kCRLF ++ rest) (head :: lines) tail

theorem exists_cutInto (text : Bytes) : ∃ lines tail, CutInto text lines tail := by
  induction size : text.length using Nat.strong_induction_on generalizing text with
  | _ size ih =>
      cases found : searchFor Buffer.kCRLF text with
      | none => exact ⟨[], text, .last found⟩
      | some position =>
          have bound := searchFor_bound (by simp [Buffer.kCRLF]) found
          have two : Buffer.kCRLF.length = 2 := rfl
          obtain ⟨lines, tail, cut⟩ := ih (text.length - (position + 2)) (by omega)
            (text.drop (position + 2)) (by rw [List.length_drop])
          have front : (text.take position).length = position := by
            rw [List.length_take]
            omega
          have split := searchFor_split found
          rw [two] at split
          have first := CutInto.line (by rw [← split, found, front]) cut
          rw [← split] at first
          exact ⟨_, tail, first⟩

theorem CutInto.length_le {text tail : Bytes} {lines : List Bytes} (cut : CutInto text lines tail) :
    2 * lines.length ≤ text.length := by
  induction cut with
  | last => simp
  | line _ _ ih =>
      simp only [List.length_append, List.length_cons, Buffer.kCRLF, List.length_nil]
      omega

namespace HttpRequest

/-- `std::find` for the colon returns the line end when there is none. -/
def colonOn (line : Bytes) : Nat := (line.idxOf? 58).getD line.length

def fieldName (line : Bytes) : Bytes := line.take (colonOn line)

def fieldValue (remaining line : Bytes) : Bytes :=
  ((remaining.drop (colonOn line + 1)).dropWhile isspace).rdropWhile isspace

/-- The following line, when complete, ends the section. -/
def endsAt : List Bytes → Bool
  | [] => false
  | next :: _ => next.length ≤ 2

/-- The fields entered, in order. -/
def headerFields : Bytes → List Bytes → List (Bytes × Bytes)
  | _, [] => []
  | remaining, line :: lines =>
      (fieldName line, fieldValue remaining line) ::
        if endsAt lines then [] else headerFields (remaining.drop (line.length + 2)) lines

def sectionEnds : List Bytes → Bool
  | [] => false
  | _ :: lines => endsAt lines || sectionEnds lines

def enterAll (headers : HeaderMap) (fields : List (Bytes × Bytes)) : HeaderMap :=
  fields.foldl (fun map field => map.insert field.1 field.2) headers

def enter (request : HttpRequest) (fields : List (Bytes × Bytes)) : HttpRequest :=
  { request with requestHeaders := enterAll request.requestHeaders fields }

@[simp] theorem enter_enter (request : HttpRequest) (first second : List (Bytes × Bytes)) :
    (request.enter first).enter second = request.enter (first ++ second) := by
  simp [enter, enterAll]

private theorem colonOn_le (line : Bytes) : colonOn line ≤ line.length := by
  unfold colonOn
  cases found : line.idxOf? 58 with
  | none => exact Nat.le_refl _
  | some position =>
      obtain ⟨inside, _⟩ := List.idxOf?_eq_some_iff.mp found
      exact Nat.le_of_lt inside

section Loop

variable {nullFind : NullFind} {text line rest : Bytes} {begin finish : Nat} {request : HttpRequest}
  {turns : Nat}

theorem bytesBetween_spec {first last : Nat} (ordered : first ≤ last) (bounded : last ≤ text.length) :
    Buffer.bytesBetween text first last = .ok (slice text first last) := if_pos ⟨ordered, bounded⟩

theorem memmem_spec (ordered : begin ≤ finish) (bounded : finish ≤ text.length) :
    memmem text begin finish =
      .ok ((searchFor Buffer.kCRLF (slice text begin finish)).map (begin + ·)) := by
  simp [memmem, bytesBetween_spec ordered bounded, pure, Except.pure]

theorem bytesBetween_skipSpaces {position : Nat} (ordered : position ≤ finish)
    (bounded : finish ≤ text.length) :
    Buffer.bytesBetween text (skipSpaces text position finish) finish =
      .ok ((slice text position finish).dropWhile isspace) := by
  have parts := List.takeWhile_append_dropWhile (p := isspace) (l := slice text position finish)
  have size : (slice text position finish).length = finish - position := by
    rw [length_slice]
    omega
  have lengths := congrArg List.length parts
  rw [List.length_append, size] at lengths
  rw [skipSpaces, bytesBetween_spec (by omega) bounded, ← slice_drop]
  conv_lhs =>
    rw [← parts, List.drop_left' (by rw [parts])]

private theorem drop_line (line rest : Bytes) : (line ++ Buffer.kCRLF ++ rest).drop (line.length + 2) = rest := by
  rw [List.append_assoc, ← List.drop_drop, List.drop_left]
  rfl

/-- Where the range goes on behind its first line. -/
theorem slice_behind_line (cut : slice text begin finish = line ++ Buffer.kCRLF ++ rest) :
    begin + line.length + 2 ≤ finish ∧ slice text (begin + line.length + 2) finish = rest := by
  have size := congrArg List.length cut
  simp only [length_slice, List.length_append, Buffer.kCRLF, List.length_cons, List.length_nil] at size
  refine ⟨by omega, ?_⟩
  rw [Nat.add_assoc, ← slice_drop, cut, drop_line]

theorem headerBody_line (nullFind : NullFind) (request : HttpRequest) (ordered : begin ≤ finish)
    (bounded : finish ≤ text.length)
    (cut : slice text begin finish = line ++ Buffer.kCRLF ++ rest) :
    headerBody nullFind text finish ⟨request, begin, some (begin + line.length)⟩ =
      let entered := request.enter [(fieldName line, fieldValue (line ++ Buffer.kCRLF ++ rest) line)]
      match searchFor Buffer.kCRLF rest with
      | none => .ok (.again ⟨entered, begin + line.length + 2, none⟩)
      | some next =>
          if next ≤ 2 then .ok (.leave (entered, true))
          else .ok (.again ⟨entered, begin + line.length + 2, some (begin + line.length + 2 + next)⟩) := by
  have size : (slice text begin finish).length = finish - begin := by
    rw [length_slice]
    omega
  have lengths := congrArg List.length cut
  simp only [size, List.length_append, Buffer.kCRLF, List.length_cons, List.length_nil] at lengths
  have colon := colonOn_le line
  have dropped : text.drop begin = line ++ (Buffer.kCRLF ++ rest ++ text.drop finish) := by
    have whole : text.drop begin = slice text begin finish ++ text.drop finish := by
      rw [slice, ← List.drop_append_of_le_length (by rw [List.length_take]; omega),
        List.take_append_drop]
    rw [whole, cut]
    simp
  have found := stdFind_of_drop nullFind 58 (by omega) dropped
  have position : ((line.idxOf? 58).map (begin + ·)).getD (begin + line.length) = begin + colonOn line := by
    unfold colonOn
    cases line.idxOf? 58 <;> rfl
  have name : slice text begin (begin + colonOn line) = fieldName line := by
    have within : begin + colonOn line ≤ finish := by omega
    rw [← slice_take within, cut, List.append_assoc,
      List.take_append_of_le_length colon]
    rfl
  have value : slice text (begin + colonOn line + 1) finish =
      (line ++ Buffer.kCRLF ++ rest).drop (colonOn line + 1) := by
    rw [← cut, slice_drop, Nat.add_assoc]
  have behind := (slice_behind_line cut).2
  simp only [headerBody, found, Outcome.ok_bind, position]
  rw [if_neg (by omega), bytesBetween_spec (by omega) (by omega), name,
    bytesBetween_skipSpaces (by omega) bounded, value, memmem_spec (by omega) bounded, behind]
  simp only [Outcome.ok_bind, fieldValue]
  cases searchFor Buffer.kCRLF rest with
  | none => rfl
  | some next =>
      simp only [Option.map_some, Nat.add_sub_cancel_left]
      split_ifs <;> rfl

private theorem watch_headers {lines : List Bytes} {tail remaining : Bytes} (cut : CutInto remaining lines tail)
    (ordered : begin ≤ finish) (bounded : finish ≤ text.length)
    (range : slice text begin finish = remaining) (enough : lines.length < turns) :
    watch (headerBody nullFind text finish) turns
        ⟨request, begin, (searchFor Buffer.kCRLF remaining).map (begin + ·)⟩ =
      .ok (request.enter (headerFields remaining lines), sectionEnds lines) := by
  obtain ⟨turns, rfl⟩ : ∃ rest, turns = rest + 1 := ⟨turns - 1, by omega⟩
  induction cut generalizing begin request turns with
  | last none =>
      rw [none]
      exact watch_leave rfl
  | @line head rest lines tail found cut ih =>
      have turn := headerBody_line nullFind request ordered bounded range
      obtain ⟨inside, behind⟩ := slice_behind_line range
      simp only [List.length_cons] at enough
      obtain ⟨turns, rfl⟩ : ∃ rest, turns = rest + 1 := ⟨turns - 1, by omega⟩
      have continued : ∀ entered : HttpRequest, watch (headerBody nullFind text finish) (turns + 1)
          ⟨entered, begin + head.length + 2,
            (searchFor Buffer.kCRLF rest).map (begin + head.length + 2 + ·)⟩ =
          .ok (entered.enter (headerFields rest lines), sectionEnds lines) :=
        fun entered => ih inside behind turns (by omega)
      rw [found, Option.map_some]
      simp only [headerFields, sectionEnds, drop_line]
      cases cut with
      | last none =>
          simp only [none, Option.map_none] at turn continued
          rw [watch_again turn, continued]
          rfl
      | @line next after lines tail nextFound cut =>
          simp only [nextFound, Option.map_some] at turn continued
          simp only [endsAt, decide_eq_true_eq]
          split_ifs at turn ⊢ with short
          · rw [watch_leave turn]
            simp [short]
          · rw [watch_again turn, continued]
            simp [short]

theorem parseReqHeaders_spec (nullFind : NullFind) (request : HttpRequest) {lines : List Bytes} {tail : Bytes}
    (ordered : begin ≤ finish) (bounded : finish ≤ text.length)
    (cut : CutInto (slice text begin finish) lines tail) :
    parseReqHeaders nullFind request text begin finish =
      .ok (request.enter (headerFields (slice text begin finish) lines), sectionEnds lines) := by
  have size := cut.length_le
  rw [length_slice] at size
  rw [parseReqHeaders, memmem_spec ordered bounded]
  exact watch_headers cut ordered bounded rfl (by omega)

end Loop

end HttpRequest

end NutServer.Net
