import NutServer.Net.HttpRequestHeadersProperties

/-!
# The pointers of the header loop

`parseReqHeaders` once more, with a record of the turns of its loop and of
every pointer that it follows or pairs with another.
-/

set_option autoImplicit false

namespace NutServer.Net

open Library

inductive Touch where
  /-- The loop condition holds once more. -/
  | turn
  | deref (position : Nat)
  /-- Two pointers are the ends of a string or of a search. -/
  | pair (first last : Nat)
  deriving DecidableEq, Repr

/-- What is followed lies in the range, and what is paired is a part of it. -/
def Touch.Within (start finish : Nat) : Touch → Prop
  | .turn => True
  | .deref position => start ≤ position ∧ position < finish
  | .pair first last => start ≤ first ∧ first ≤ last ∧ last ≤ finish

private theorem Touch.deref_ne_turn (position : Nat) : Touch.deref position ≠ .turn := by
  intro same
  cases same

private theorem Touch.pair_ne_turn (first last : Nat) : Touch.pair first last ≠ .turn := by
  intro same
  cases same

abbrev Recorded := StateT (List Touch) Outcome

namespace Recorded

variable {α : Type}

def touch (entry : Touch) : Recorded Unit := modify (· ++ [entry])

def deref (text : Bytes) (position : Nat) : Recorded UInt8 := do
  touch (.deref position)
  match text[position]? with
  | some byte => return byte
  | none => throw .range

def string (text : Bytes) (first last : Nat) : Recorded Bytes := do
  touch (.pair first last)
  liftM (Buffer.bytesBetween text first last)

def find (nullFind : NullFind) (text : Bytes) (first : Nat) (char : UInt8) (last : Nat) : Recorded (Option Nat) := do
  touch (.pair first last)
  liftM (stdFind nullFind text first char (some last))

def search (text : Bytes) (first finish : Nat) : Recorded (Option Nat) := do
  touch (.pair first finish)
  liftM (memmem text first finish)

/-- The loop over the spaces, with so many bytes left. -/
def skip (text : Bytes) : Nat → Nat → Recorded Nat
  | 0, position => return position
  | left + 1, position => do
      if isspace (← deref text position) then skip text left (position + 1) else return position

def headerBody (nullFind : NullFind) (text : Bytes) (finish : Nat) (locals : HttpRequest.HeaderLocals) :
    Recorded (Turn HttpRequest.HeaderLocals (HttpRequest × Bool)) :=
  match locals.crlf with
  | none => return .leave (locals.request, false)
  | some crlf =>
      if crlf = finish then return .leave (locals.request, false)
      else do
        touch .turn
        let colon := (← find nullFind text locals.begin 58 crlf).getD crlf
        let field ← string text locals.begin colon
        let position ← skip text (finish - (colon + 1)) (colon + 1)
        let value ← string text position finish
        let request := { locals.request with
          requestHeaders := locals.request.requestHeaders.insert field (value.rdropWhile isspace) }
        let begin := crlf + 2
        match ← search text begin finish with
        | none => return .again { request, begin, crlf := none }
        | some next =>
            if next - begin ≤ 2 then return .leave (request, true)
            else return .again { request, begin, crlf := some next }

def headerLoop (nullFind : NullFind) (text : Bytes) (finish : Nat) :
    Nat → HttpRequest.HeaderLocals → Recorded (HttpRequest × Bool)
  | 0, _ => throw .hang
  | turns + 1, locals => do
      match ← headerBody nullFind text finish locals with
      | .again next => headerLoop nullFind text finish turns next
      | .leave result => return result

def parseReqHeaders (nullFind : NullFind) (request : HttpRequest) (text : Bytes) (start finish : Nat) :
    Recorded (HttpRequest × Bool) := do
  let crlf ← search text start finish
  headerLoop nullFind text finish ((finish - start) / 2 + 1) ⟨request, start, crlf⟩

section Calls

variable {nullFind : NullFind} {text : Bytes} {first last position left : Nat} {past : List Touch}

private theorem run_bind {β : Type} {program : Recorded α} {next : α → Recorded β} {value : α} {touches : List Touch}
    (ran : program.run past = .ok (value, touches)) : (program >>= next).run past = (next value).run touches := by
  rw [StateT.run_bind, ran]
  rfl

private theorem run_touch (entry : Touch) : (touch entry).run past = .ok ((), past ++ [entry]) := rfl

private theorem run_string {bytes : Bytes} (read : Buffer.bytesBetween text first last = .ok bytes) :
    (string text first last).run past = .ok (bytes, past ++ [.pair first last]) := by
  rw [string, run_bind (run_touch _), read]
  rfl

private theorem run_find {char : UInt8} {found : Option Nat} (searched : stdFind nullFind text first char (some last) = .ok found) :
    (find nullFind text first char last).run past = .ok (found, past ++ [.pair first last]) := by
  rw [find, run_bind (run_touch _), searched]
  rfl

private theorem run_search {found : Option Nat} (searched : memmem text first last = .ok found) :
    (search text first last).run past = .ok (found, past ++ [.pair first last]) := by
  rw [search, run_bind (run_touch _), searched]
  rfl

private theorem run_deref {byte : UInt8} (present : text[position]? = some byte) :
    (deref text position).run past = .ok (byte, past ++ [.deref position]) := by
  rw [deref, run_bind (run_touch _), present]
  rfl

private theorem skipSpaces_step {finish : Nat} {byte : UInt8} (inside : position < finish)
    (present : text[position]? = some byte) :
    skipSpaces text position finish = if isspace byte then skipSpaces text (position + 1) finish else position := by
  rw [skipSpaces, slice_cons inside present]
  split_ifs with space
  · rw [List.takeWhile_cons_of_pos space, List.length_cons, skipSpaces]
    omega
  · rw [List.takeWhile_cons_of_neg space, List.length_nil, Nat.add_zero]

/-- The loop over the spaces looks at the bytes it passes, and at the one that
stops it, if that is not the end. -/
theorem run_skip (past : List Touch) (bounded : position + left ≤ text.length) :
    ∃ touches, (skip text left position).run past =
        .ok (skipSpaces text position (position + left), past ++ touches) ∧
      ∀ entry ∈ touches, ∃ seen, entry = .deref seen ∧ position ≤ seen ∧ seen < position + left := by
  induction left generalizing position past with
  | zero =>
      refine ⟨[], ?_, nofun⟩
      rw [Nat.add_zero, skipSpaces, slice_self, List.append_nil]
      rfl
  | succ left ih =>
      have present := List.getElem?_eq_getElem (show position < text.length by omega)
      have looked : (deref text position).run past = .ok (text[position], past ++ [.deref position]) := run_deref present
      have step := skipSpaces_step (show position < position + (left + 1) by omega) present
      cases space : isspace text[position] with
      | true =>
          obtain ⟨touches, ran, within⟩ := ih (past ++ [.deref position]) (show position + 1 + left ≤ text.length by omega)
          refine ⟨.deref position :: touches, ?_, ?_⟩
          · have same : position + (left + 1) = position + 1 + left := by omega
            rw [skip, run_bind looked, if_pos space, ran, step, if_pos space, same, List.append_assoc]
            rfl
          · intro entry member
            rcases List.mem_cons.mp member with rfl | later
            · exact ⟨position, rfl, Nat.le_refl _, by omega⟩
            · obtain ⟨seen, same, least, below⟩ := within entry later
              exact ⟨seen, same, by omega, by omega⟩
      | false =>
          refine ⟨[.deref position], ?_, ?_⟩
          · rw [skip, run_bind looked, if_neg (by simp [space]), step, if_neg (by simp [space])]
            rfl
          · intro entry member
            exact ⟨position, List.mem_singleton.mp member, Nat.le_refl _, by omega⟩

end Calls

section Loop

variable {nullFind : NullFind} {text line rest : Bytes} {start begin finish turns : Nat} {request : HttpRequest}
  {past : List Touch}

private theorem colon_inside {crlf : Nat} (ordered : begin ≤ crlf) (bounded : crlf ≤ text.length) :
    let colon := (((slice text begin crlf).idxOf? 58).map (begin + ·)).getD crlf
    begin ≤ colon ∧ colon ≤ crlf := by
  cases found : (slice text begin crlf).idxOf? 58 with
  | none => exact ⟨ordered, Nat.le_refl _⟩
  | some position =>
      obtain ⟨inside, _⟩ := List.idxOf?_eq_some_iff.mp found
      rw [length_slice] at inside
      simp only [Option.map_some, Option.getD_some]
      omega

private theorem bytesBetween_bounds {first last : Nat} {bytes : Bytes}
    (read : Buffer.bytesBetween text first last = .ok bytes) : first ≤ last ∧ last ≤ text.length := by
  unfold Buffer.bytesBetween at read
  split_ifs at read with inside
  exact inside

private theorem append_touches (past passed : List Touch) (entered found named valued searched : Touch) :
    past ++ [entered] ++ [found] ++ [named] ++ passed ++ [valued] ++ [searched] =
      past ++ entered :: (found :: named :: passed ++ [valued, searched]) := by simp

/-- One turn does what the loop body does, and touches the range only. -/
theorem headerBody_spec (nullFind : NullFind) (request : HttpRequest) (past : List Touch) {crlf : Nat}
    (least : start ≤ begin) (ordered : begin ≤ crlf) (inside : crlf + 2 ≤ finish) (bounded : finish ≤ text.length) :
    ∃ touches,
      (headerBody nullFind text finish ⟨request, begin, some crlf⟩).run past =
        (HttpRequest.headerBody nullFind text finish ⟨request, begin, some crlf⟩).map
          (fun turn => (turn, past ++ Touch.turn :: touches)) ∧
      ∀ entry ∈ touches, entry ≠ Touch.turn ∧ entry.Within start finish := by
  obtain ⟨colonLeast, colonMost⟩ := colon_inside ordered (show crlf ≤ text.length by omega)
  have found : stdFind nullFind text begin 58 (some crlf) =
      .ok (((slice text begin crlf).idxOf? 58).map (begin + ·)) := by
    rw [stdFind, HttpRequest.bytesBetween_spec ordered (by omega)]
    rfl
  generalize (((slice text begin crlf).idxOf? 58).map (begin + ·)) = colon? at found colonLeast colonMost
  let colon := colon?.getD crlf
  let stop := skipSpaces text (colon + 1) finish
  have named : Buffer.bytesBetween text begin colon = .ok (slice text begin colon) :=
    HttpRequest.bytesBetween_spec colonLeast (by omega)
  have valued := HttpRequest.bytesBetween_skipSpaces (show colon + 1 ≤ finish by omega) bounded
  have searched := HttpRequest.memmem_spec inside bounded
  have stopLeast : colon + 1 ≤ stop := Nat.le_add_right _ _
  have stopMost : stop ≤ finish := (bytesBetween_bounds valued).1
  have whole : colon + 1 + (finish - (colon + 1)) = finish := by omega
  obtain ⟨passed, skipped, looked⟩ := run_skip (past ++ [Touch.turn] ++ [Touch.pair begin crlf] ++ [Touch.pair begin colon])
    (show colon + 1 + (finish - (colon + 1)) ≤ text.length by omega)
  rw [whole] at skipped looked
  refine ⟨.pair begin crlf :: .pair begin colon :: passed ++ [.pair stop finish, .pair (crlf + 2) finish], ?_, ?_⟩
  · simp only [headerBody, HttpRequest.headerBody]
    rw [if_neg (by omega), if_neg (by omega), run_bind (run_touch _), run_bind (run_find found),
      run_bind (run_string named), run_bind skipped, run_bind (run_string valued), run_bind (run_search searched),
      found, Outcome.ok_bind, named, Outcome.ok_bind, valued, Outcome.ok_bind, searched, Outcome.ok_bind]
    have trace := append_touches past passed .turn (.pair begin crlf) (.pair begin colon) (.pair stop finish)
      (.pair (crlf + 2) finish)
    rw [← trace]
    cases searchFor Buffer.kCRLF (slice text (crlf + 2) finish) with
    | none => rfl
    | some next =>
        simp only [Option.map_some]
        split_ifs <;> rfl
  · intro entry member
    simp only [List.cons_append, List.mem_cons, List.mem_append, List.not_mem_nil, or_false] at member
    rcases member with rfl | rfl | inSkip | rfl | rfl
    · exact ⟨Touch.pair_ne_turn _ _, by simp only [Touch.Within]; omega⟩
    · exact ⟨Touch.pair_ne_turn _ _, by simp only [Touch.Within]; omega⟩
    · obtain ⟨seen, rfl, atLeast, below⟩ := looked entry inSkip
      exact ⟨Touch.deref_ne_turn _, by simp only [Touch.Within]; omega⟩
    · exact ⟨Touch.pair_ne_turn _ _, by simp only [Touch.Within]; omega⟩
    · exact ⟨Touch.pair_ne_turn _ _, by simp only [Touch.Within]; omega⟩

private theorem headerLoop_again {locals next : HttpRequest.HeaderLocals} {touches : List Touch}
    (turn : (headerBody nullFind text finish locals).run past = .ok (.again next, touches)) :
    (headerLoop nullFind text finish (turns + 1) locals).run past =
      (headerLoop nullFind text finish turns next).run touches := run_bind turn

private theorem headerLoop_leave {locals : HttpRequest.HeaderLocals} {result : HttpRequest × Bool} {touches : List Touch}
    (turn : (headerBody nullFind text finish locals).run past = .ok (.leave result, touches)) :
    (headerLoop nullFind text finish (turns + 1) locals).run past = .ok (result, touches) := run_bind turn

/-- What the recorded loop does on lines: the result of the loop itself, a turn
for each line at most, and no touch outside. -/
structure Follows (nullFind : NullFind) (text : Bytes) (start finish turns count : Nat)
    (locals : HttpRequest.HeaderLocals) (past : List Touch) (result : HttpRequest × Bool)
    (touches : List Touch) : Prop where
  recorded : (headerLoop nullFind text finish turns locals).run past = .ok (result, past ++ touches)
  plain : watch (HttpRequest.headerBody nullFind text finish) turns locals = .ok result
  counted : touches.count .turn ≤ count
  within : ∀ entry ∈ touches, entry.Within start finish

private theorem count_turn_eq_zero {touches : List Touch} (none : ∀ entry ∈ touches, entry ≠ .turn ∧ entry.Within start finish) :
    touches.count .turn = 0 :=
  List.count_eq_zero.mpr fun member => (none _ member).1 rfl

theorem Follows.again {count : Nat} {locals next : HttpRequest.HeaderLocals} {result : HttpRequest × Bool}
    {touches later : List Touch}
    (recorded : (headerBody nullFind text finish locals).run past = .ok (.again next, past ++ .turn :: touches))
    (plain : HttpRequest.headerBody nullFind text finish locals = .ok (.again next))
    (within : ∀ entry ∈ touches, entry ≠ .turn ∧ entry.Within start finish)
    (follows : Follows nullFind text start finish turns count next (past ++ .turn :: touches) result later) :
    Follows nullFind text start finish (turns + 1) (count + 1) locals past result (.turn :: touches ++ later) := by
  refine ⟨?_, ?_, ?_, ?_⟩
  · rw [headerLoop_again recorded, follows.recorded, List.append_assoc]
  · rw [watch_again plain, follows.plain]
  · have here := count_turn_eq_zero within
    have rest := follows.counted
    rw [List.cons_append, List.count_cons_self, List.count_append, here]
    omega
  · intro entry member
    rcases List.mem_cons.mp member with rfl | member
    · trivial
    · rcases List.mem_append.mp member with inTurn | behind
      · exact (within entry inTurn).2
      · exact follows.within entry behind

theorem Follows.leave {count : Nat} {locals : HttpRequest.HeaderLocals} {result : HttpRequest × Bool}
    {touches : List Touch}
    (recorded : (headerBody nullFind text finish locals).run past = .ok (.leave result, past ++ .turn :: touches))
    (plain : HttpRequest.headerBody nullFind text finish locals = .ok (.leave result))
    (within : ∀ entry ∈ touches, entry ≠ .turn ∧ entry.Within start finish) :
    Follows nullFind text start finish (turns + 1) (count + 1) locals past result (.turn :: touches) := by
  refine ⟨headerLoop_leave recorded, watch_leave plain, ?_, ?_⟩
  · rw [List.count_cons_self, count_turn_eq_zero within]
    omega
  · intro entry member
    rcases List.mem_cons.mp member with rfl | inTurn
    · trivial
    · exact (within entry inTurn).2

private theorem headerLoop_follows (nullFind : NullFind) (request : HttpRequest) {lines : List Bytes}
    {tail remaining : Bytes} (cut : CutInto remaining lines tail) (past : List Touch)
    (least : start ≤ begin) (ordered : begin ≤ finish) (bounded : finish ≤ text.length)
    (range : slice text begin finish = remaining) (enough : lines.length < turns) :
    ∃ result touches, Follows nullFind text start finish turns lines.length
      ⟨request, begin, (searchFor Buffer.kCRLF remaining).map (begin + ·)⟩ past result touches := by
  obtain ⟨turns, rfl⟩ : ∃ rest, turns = rest + 1 := ⟨turns - 1, by omega⟩
  induction cut generalizing begin request turns past with
  | last none =>
      rw [none]
      exact ⟨(request, false), [], ⟨by rw [List.append_nil]; rfl, watch_leave rfl, Nat.le_refl 0, nofun⟩⟩
  | @line head rest lines tail found cut ih =>
      have plain := HttpRequest.headerBody_line nullFind request ordered bounded range
      obtain ⟨inside, behind⟩ := HttpRequest.slice_behind_line range
      obtain ⟨touches, recorded, within⟩ := headerBody_spec nullFind request past least
        (Nat.le_add_right begin head.length) inside bounded
      simp only [List.length_cons] at enough
      obtain ⟨turns, rfl⟩ : ∃ rest, turns = rest + 1 := ⟨turns - 1, by omega⟩
      have continued : ∀ entered : HttpRequest, ∃ result later, Follows nullFind text start finish (turns + 1)
          lines.length ⟨entered, begin + head.length + 2,
            (searchFor Buffer.kCRLF rest).map (begin + head.length + 2 + ·)⟩
          (past ++ .turn :: touches) result later :=
        fun entered => ih entered _ (show start ≤ begin + head.length + 2 by omega) inside behind turns (by omega)
      rw [found, Option.map_some, List.length_cons]
      cases after : searchFor Buffer.kCRLF rest with
      | none =>
          simp only [after, Option.map_none] at plain continued
          rw [plain] at recorded
          obtain ⟨result, later, follows⟩ := continued _
          exact ⟨result, _, .again recorded plain within follows⟩
      | some next =>
          simp only [after, Option.map_some] at plain continued
          split_ifs at plain with short
          · rw [plain] at recorded
            exact ⟨_, _, .leave recorded plain within⟩
          · rw [plain] at recorded
            obtain ⟨result, later, follows⟩ := continued _
            exact ⟨result, _, .again recorded plain within follows⟩

theorem parseReqHeaders_within (nullFind : NullFind) (request : HttpRequest) (text : Bytes) {start finish : Nat}
    (ordered : start ≤ finish) (bounded : finish ≤ text.length) :
    ∃ result touches,
      (parseReqHeaders nullFind request text start finish).run [] = .ok (result, touches) ∧
      HttpRequest.parseReqHeaders nullFind request text start finish = .ok result ∧
      touches.count .turn ≤ (finish - start) / 2 ∧
      ∀ entry ∈ touches, entry.Within start finish := by
  obtain ⟨lines, tail, cut⟩ := exists_cutInto (slice text start finish)
  have size := cut.length_le
  rw [length_slice] at size
  have searched := HttpRequest.memmem_spec ordered bounded
  obtain ⟨result, touches, follows⟩ := headerLoop_follows nullFind request cut
    [.pair start finish] (Nat.le_refl start) ordered bounded rfl
    (show lines.length < (finish - start) / 2 + 1 by omega)
  refine ⟨result, .pair start finish :: touches, ?_, ?_, ?_, ?_⟩
  · rw [parseReqHeaders, run_bind (run_search searched)]
    exact follows.recorded
  · rw [HttpRequest.parseReqHeaders, searched]
    exact follows.plain
  · have counted := follows.counted
    rw [List.count_cons_of_ne (Touch.pair_ne_turn start finish)]
    omega
  · intro entry member
    rcases List.mem_cons.mp member with rfl | behind
    · exact ⟨Nat.le_refl start, ordered, Nat.le_refl finish⟩
    · exact follows.within entry behind

/-- No colon, an empty line, a colon right before the CRLF, and a stop in the
middle of a line end. -/
theorem parseReqHeaders_within_hostile :
    ∃ result touches,
      (parseReqHeaders .undefined .new (ascii "abc\r\n\r\nde:\r\nf\r") 0 14).run [] = .ok (result, touches) ∧
      HttpRequest.parseReqHeaders .undefined .new (ascii "abc\r\n\r\nde:\r\nf\r") 0 14 = .ok result ∧
      touches.count .turn ≤ (14 - 0) / 2 ∧
      ∀ entry ∈ touches, entry.Within 0 14 :=
  parseReqHeaders_within .undefined .new (ascii "abc\r\n\r\nde:\r\nf\r") (Nat.zero_le 14) (by decide)

end Loop

end Recorded

end NutServer.Net
