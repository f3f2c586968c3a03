import NutServer.Library.Trim
import NutServer.Net.HttpRequestCuts

/-!
# Header sections as texts

What the header parser makes of a section as it is written. The end of the
section is taken from the length of a line, and the value of a field runs to
the end of the range, so both are right under conditions only.
-/

set_option autoImplicit false

namespace NutServer.Net

open Library

/-- A field whose line can be split at the first colon and trimmed again. -/
structure CleanField extends HeaderField where
  uncoloned : 58 ∉ name
  trimmed : Trimmed isspace value

def sectionText (fields : List CleanField) (body : Bytes) : Bytes :=
  joinLines (fields.map fun field => field.line) ++ (Buffer.kCRLF ++ body)

def lastValue (fields : List CleanField) (name : Bytes) : Option Bytes :=
  (fields.reverse.find? fun field => field.name = name).map fun field => field.value

section LineEnds

variable {lines : List Bytes} {text tail : Bytes}

private theorem infix_line_iff {head rest : Bytes}
    (found : searchFor Buffer.kCRLF (head ++ Buffer.kCRLF ++ rest) = some head.length) :
    Buffer.kCRLF ++ Buffer.kCRLF <:+: head ++ Buffer.kCRLF ++ rest ↔
      Buffer.kCRLF <+: rest ∨ Buffer.kCRLF ++ Buffer.kCRLF <:+: rest := by
  constructor
  · intro within
    obtain ⟨before, after, whole⟩ := within
    have begins : Buffer.kCRLF <+: (head ++ Buffer.kCRLF ++ rest).drop before.length := by
      rw [← whole, List.append_assoc, List.drop_left, List.append_assoc]
      exact List.prefix_append _ _
    have least : head.length ≤ before.length := by
      by_contra earlier
      exact (searchFor_some found).2 before.length (Nat.lt_of_not_le earlier) begins
    simp only [List.append_assoc] at whole
    obtain ⟨between, rfl, behind⟩ : ∃ between, before = head ++ between ∧
        Buffer.kCRLF ++ rest = between ++ (Buffer.kCRLF ++ (Buffer.kCRLF ++ after)) := by
      rcases List.append_eq_append_iff.mp whole with ⟨between, rfl, behind⟩ | ⟨between, rfl, behind⟩
      · have none : between = [] := List.eq_nil_of_length_eq_zero (by rw [List.length_append] at least; omega)
        subst none
        exact ⟨[], by simp, by simpa using behind.symm⟩
      · exact ⟨between, rfl, behind⟩
    -- The second line end begins where the first one ends, or behind it.
    match between, behind with
    | [], behind =>
        have next : rest = Buffer.kCRLF ++ after := by simpa using behind
        exact .inl ⟨after, next.symm⟩
    | [_], behind => simp [Buffer.kCRLF] at behind
    | _ :: _ :: between, behind =>
        have next : rest = between ++ (Buffer.kCRLF ++ Buffer.kCRLF ++ after) := by
          simp only [Buffer.kCRLF, List.cons_append, List.nil_append, List.cons.injEq] at behind ⊢
          exact behind.2.2
        exact .inr ⟨between, after, by rw [next, List.append_assoc]⟩
  · rintro (⟨after, rfl⟩ | ⟨before, after, rfl⟩)
    · exact ⟨head, after, by simp⟩
    · exact ⟨head ++ Buffer.kCRLF ++ before, after, by simp⟩

private theorem CutInto.begins_iff (cut : CutInto text lines tail) :
    Buffer.kCRLF <+: text ↔ lines.head? = some [] := by
  cases cut with
  | last missing =>
      have absent := not_infix_of_searchFor (by decide) missing
      exact iff_of_false (fun begins => absent begins.isInfix) nofun
  | @line head rest lines tail found _ =>
      rw [List.head?_cons, Option.some_inj]
      constructor
      · intro begins
        by_contra some
        exact (searchFor_some found).2 0 (List.length_pos_iff.mpr some) (by simpa using begins)
      · rintro rfl
        exact ⟨rest, by simp⟩

private theorem CutInto.infix_iff (cut : CutInto text lines tail) :
    Buffer.kCRLF ++ Buffer.kCRLF <:+: text ↔ [] ∈ lines.tail := by
  induction cut with
  | last missing =>
      have absent := not_infix_of_searchFor (by decide) missing
      exact iff_of_false (fun within => absent ((List.prefix_append _ _).isInfix.trans within)) List.not_mem_nil
  | @line head rest lines tail found cut ih =>
      rw [infix_line_iff found, ih, cut.begins_iff, List.tail_cons]
      cases lines with
      | nil => simp
      | cons next lines => simp [eq_comm]

end LineEnds

namespace HttpRequest

section Lines

variable {lines : List Bytes} {line rest text tail : Bytes}

private theorem sectionEnds_iff : sectionEnds lines = true ↔ ∃ line ∈ lines.tail, line.length ≤ 2 := by
  induction lines with
  | nil => simp [sectionEnds]
  | cons line lines ih =>
      rw [sectionEnds, Bool.or_eq_true, ih]
      cases lines with
      | nil => simp [endsAt]
      | cons next lines => simp [endsAt]

private theorem cutInto_append {others : List Bytes} (inline : ∀ line ∈ lines, Inline line) (cut : CutInto text others tail) :
    CutInto (joinLines lines ++ text) (lines ++ others) tail := by
  induction lines with
  | nil => exact cut
  | cons line lines ih =>
      have later := ih fun other member => inline other (List.mem_cons_of_mem _ member)
      rw [joinLines_cons, List.append_assoc]
      exact .line (searchFor_inline _ (inline line List.mem_cons_self)) later

end Lines

section Fields

variable {fields : List CleanField} {field : CleanField} {body rest tail : Bytes}

private theorem colonOn_line (field : CleanField) : colonOn field.line = field.name.length := by
  have split : field.line = field.name ++ 58 :: (32 :: field.value) := by
    simp [HeaderField.line, ascii]
  rw [colonOn, split, idxOf?_append_cons field.uncoloned]
  rfl

private theorem fieldName_line (field : CleanField) : fieldName field.line = field.name := by
  rw [fieldName, colonOn_line, HeaderField.line, List.append_assoc, List.take_left]

/-- The value found for a field is the written one exactly when nothing but
white space follows in the whole range. -/
theorem fieldValue_eq_iff :
    fieldValue (field.line ++ Buffer.kCRLF ++ rest) field.line = field.value ↔
      ∀ byte ∈ rest, isspace byte = true := by
  have behind : (field.line ++ Buffer.kCRLF ++ rest).drop (colonOn field.line + 1) =
      32 :: (field.value ++ (Buffer.kCRLF ++ rest)) := by
    have split : field.line ++ Buffer.kCRLF ++ rest =
        field.name ++ 58 :: 32 :: (field.value ++ (Buffer.kCRLF ++ rest)) := by
      simp [HeaderField.line, ascii]
    rw [colonOn_line, split, ← List.drop_drop, List.drop_left]
    rfl
  have lineEnd : ∀ byte ∈ Buffer.kCRLF, isspace byte = true := by simp [Buffer.kCRLF, isspace]
  have trimmedValue : fieldValue (field.line ++ Buffer.kCRLF ++ rest) field.line =
      trim isspace (field.value ++ (Buffer.kCRLF ++ rest)) := by
    rw [fieldValue, behind]
    exact trim_cons rfl
  rw [trimmedValue, trim_append_eq_iff field.trimmed]
  constructor
  · exact fun blanks byte member => blanks byte (List.mem_append_right _ member)
  · intro blanks byte member
    exact (List.mem_append.mp member).elim (lineEnd byte) (blanks byte)

/-- What is entered for the fields when `tail` follows their lines. -/
def enteredFields (tail : Bytes) : List CleanField → List (Bytes × Bytes)
  | [] => []
  | field :: fields =>
      (field.name, fieldValue (joinLines ((field :: fields).map fun field => field.line) ++ tail) field.line) ::
        enteredFields tail fields

private theorem names_enteredFields (tail : Bytes) (fields : List CleanField) :
    (enteredFields tail fields).map Prod.fst = fields.map fun field => field.name := by
  induction fields with
  | nil => rfl
  | cons field fields ih => simp [enteredFields, ih]

private theorem enteredFields_append (tail : Bytes) (before after : List CleanField) :
    ∃ earlier, enteredFields tail (before ++ after) = earlier ++ enteredFields tail after := by
  induction before with
  | nil => exact ⟨[], rfl⟩
  | cons field before ih =>
      obtain ⟨earlier, split⟩ := ih
      exact ⟨_ :: earlier, by rw [List.cons_append, enteredFields, split]; rfl⟩

private theorem headerFields_section (more : List Bytes) (some : fields ≠ []) :
    headerFields (joinLines (fields.map fun field => field.line) ++ tail)
      ((fields.map fun field => field.line) ++ [] :: more) = enteredFields tail fields := by
  induction fields with
  | nil => exact absurd rfl some
  | cons field fields ih =>
      have dropped : (joinLines (field.line :: fields.map fun field => field.line) ++ tail).drop
          (field.line.length + 2) = joinLines (fields.map fun field => field.line) ++ tail := by
        rw [joinLines_cons, List.append_assoc, List.append_assoc, ← List.drop_drop, List.drop_left]
        rfl
      rw [enteredFields, List.map_cons, List.cons_append, headerFields, fieldName_line, dropped]
      cases fields with
      | nil => simp [endsAt, enteredFields]
      | cons next fields =>
          have long : ¬ next.line.length ≤ 2 := Nat.not_le.mpr next.length_line
          have others := ih (List.cons_ne_nil _ _)
          simp only [List.map_cons, List.cons_append, endsAt, long, decide_false, Bool.false_eq_true, if_false]
          rw [← others]
          rfl

private theorem exists_last (member : field ∈ fields) :
    ∃ before found after, fields = before ++ found :: after ∧ found.name = field.name ∧
      ∀ later ∈ after, later.name ≠ field.name := by
  induction fields generalizing field with
  | nil => cases member
  | cons first fields ih =>
      by_cases repeated : ∃ later ∈ fields, later.name = field.name
      · obtain ⟨later, inRest, same⟩ := repeated
        obtain ⟨before, found, after, rfl, name, last⟩ := ih inRest
        exact ⟨first :: before, found, after, rfl, name.trans same, same ▸ last⟩
      · have others : ∀ later ∈ fields, later.name ≠ field.name :=
          fun later inRest same => repeated ⟨later, inRest, same⟩
        rcases List.mem_cons.mp member with rfl | inRest
        · exact ⟨[], field, fields, rfl, rfl, others⟩
        · exact absurd rfl (others field inRest)

private theorem lastValue_split {before after : List CleanField} (last : ∀ later ∈ after, later.name ≠ field.name) :
    lastValue (before ++ field :: after) field.name = some field.value := by
  have passed : after.reverse.find? (fun other => other.name = field.name) = none := by
    rw [List.find?_eq_none]
    intro other member
    simpa using last other (List.mem_reverse.mp member)
  simp [lastValue, passed]

private theorem lastValue_eq_none {name : Bytes} (absent : ∀ field ∈ fields, field.name ≠ name) :
    lastValue fields name = none := by
  have passed : fields.reverse.find? (fun field => field.name = name) = none := by
    rw [List.find?_eq_none]
    intro field member
    simpa using absent field (List.mem_reverse.mp member)
  simp [lastValue, passed]

/-- The last field of a name decides what is entered for the name. -/
theorem getElem?_enteredFields {before after : List CleanField}
    (last : ∀ later ∈ after, later.name ≠ field.name) :
    (enterAll ∅ (enteredFields tail (before ++ field :: after)))[field.name]? =
      some (fieldValue (joinLines ((field :: after).map fun field => field.line) ++ tail) field.line) := by
  obtain ⟨earlier, split⟩ := enteredFields_append tail before (field :: after)
  have absent : field.name ∉ (enteredFields tail after).map Prod.fst := by
    rw [names_enteredFields]
    intro member
    obtain ⟨later, inAfter, same⟩ := List.mem_map.mp member
    exact last later inAfter same
  rw [split, enterAll, List.foldl_append, ← enterAll, ← enterAll, enteredFields, enterAll_cons,
    getElem?_enterAll_of_notMem absent, Std.ExtTreeMap.getElem?_insert_self]

/-- The lines behind a field are not blank, as they have colons. -/
theorem blank_iff {after : List CleanField} :
    (∀ byte ∈ joinLines (after.map fun field => field.line) ++ (Buffer.kCRLF ++ body), isspace byte = true) ↔
      after = [] ∧ ∀ byte ∈ body, isspace byte = true := by
  constructor
  · intro blanks
    constructor
    · cases after with
      | nil => rfl
      | cons next after =>
          have colon : (58 : UInt8) ∈ next.line := by simp [HeaderField.line, ascii]
          have blank := blanks 58 (by simp [colon])
          cases blank
    · exact fun byte member => blanks byte (List.mem_append_right _ (List.mem_append_right _ member))
  · intro both byte member
    obtain ⟨rfl, blanks⟩ := both
    rcases List.mem_append.mp member with inLines | behind
    · cases inLines
    · rcases List.mem_append.mp behind with lineEnd | inBody
      · revert lineEnd
        simp only [Buffer.kCRLF, List.mem_cons, List.not_mem_nil, or_false]
        rintro (rfl | rfl) <;> rfl
      · exact blanks byte inBody

private theorem valueFound_iff {after : List CleanField} :
    fieldValue (joinLines ((field :: after).map fun field => field.line) ++ (Buffer.kCRLF ++ body)) field.line =
      field.value ↔ after = [] ∧ ∀ byte ∈ body, isspace byte = true := by
  rw [List.map_cons, joinLines_cons, List.append_assoc, fieldValue_eq_iff, blank_iff]

/-- Every name gets its last value exactly when there is one name only and the
body is blank. -/
theorem enteredFields_right_iff (some : fields ≠ []) :
    (∀ name : Bytes, (enterAll ∅ (enteredFields (Buffer.kCRLF ++ body) fields))[name]? = lastValue fields name) ↔
      (∀ first ∈ fields, ∀ second ∈ fields, first.name = second.name) ∧ ∀ byte ∈ body, isspace byte = true := by
  constructor
  · intro right
    have lastOnly : ∀ {before : List CleanField} {found : CleanField} {after : List CleanField},
        fields = before ++ found :: after → (∀ later ∈ after, later.name ≠ found.name) →
        after = [] ∧ ∀ byte ∈ body, isspace byte = true := by
      intro before found after split last
      have here := right found.name
      rw [split, getElem?_enteredFields last, lastValue_split last] at here
      exact valueFound_iff.mp (Option.some.inj here)
    obtain ⟨init, final, rfl⟩ := List.eq_nil_or_concat fields |>.resolve_left some
    have ends : ∀ field ∈ init.concat final, field.name = final.name := by
      intro field member
      obtain ⟨before, found, after, split, name, last⟩ := exists_last member
      obtain ⟨rfl, _⟩ := lastOnly split (name ▸ last)
      have same : final = found := by
        rw [List.concat_eq_append] at split
        exact List.singleton_injective (List.append_inj_right' split rfl)
      rw [same, name]
    refine ⟨fun first inFirst second inSecond => (ends first inFirst).trans (ends second inSecond).symm, ?_⟩
    exact (lastOnly (List.concat_eq_append ..) nofun).2
  · intro both name
    obtain ⟨oneName, blanks⟩ := both
    obtain ⟨init, final, rfl⟩ := List.eq_nil_or_concat fields |>.resolve_left some
    rw [List.concat_eq_append] at oneName ⊢
    by_cases named : name = final.name
    · have none : ∀ later ∈ ([] : List CleanField), later.name ≠ final.name :=
        fun later member => absurd member List.not_mem_nil
      rw [named, getElem?_enteredFields none, lastValue_split none]
      exact congrArg Option.some (valueFound_iff.mpr ⟨rfl, blanks⟩)
    · have others : ∀ field ∈ init ++ [final], field.name ≠ name :=
        fun field member same => named (same ▸ oneName field member final (by simp))
      rw [lastValue_eq_none others, getElem?_enterAll_of_notMem]
      · simp
      · rw [names_enteredFields]
        intro member
        obtain ⟨field, inFields, same⟩ := List.mem_map.mp member
        exact others field inFields same

/-- The section is accepted, and the map sends each name to its last value. -/
def Survives (nullFind : NullFind) (request : HttpRequest) (text : Bytes) (start finish : Nat)
    (fields : List CleanField) : Prop :=
  ∃ next, parseReqHeaders nullFind request text start finish = .ok (next, true) ∧
    ∀ name : Bytes, next.requestHeaders[name]? = lastValue fields name ∧
      next.getHeaders name = (lastValue fields name).getD []

section Written

variable {request : HttpRequest} {text : Bytes} {start finish : Nat}

/-- A written header section is always accepted, with `enteredFields` for fields. -/
theorem parseReqHeaders_section (nullFind : NullFind) (request : HttpRequest) (ordered : start ≤ finish)
    (bounded : finish ≤ text.length) (some : fields ≠ [])
    (range : slice text start finish = sectionText fields body) :
    parseReqHeaders nullFind request text start finish =
      .ok (request.enter (enteredFields (Buffer.kCRLF ++ body) fields), true) := by
  obtain ⟨others, tail, cutBody⟩ := exists_cutInto body
  have inline : ∀ line ∈ fields.map fun field => field.line, Inline line := by
    intro line member
    obtain ⟨field, _, rfl⟩ := List.mem_map.mp member
    exact field.line_inline
  have emptyLine : CutInto (Buffer.kCRLF ++ body) ([] :: others) tail :=
    .line (searchFor_inline body (nofun : Inline [])) cutBody
  have cut := cutInto_append inline emptyLine
  have ends : sectionEnds ((fields.map fun field => field.line) ++ [] :: others) = true := by
    rw [sectionEnds_iff]
    obtain ⟨first, rest, rfl⟩ := List.exists_cons_of_ne_nil some
    exact ⟨[], by simp, by simp⟩
  rw [sectionText] at range
  rw [← range] at cut
  rw [parseReqHeaders_spec nullFind request ordered bounded cut, ends, range, headerFields_section others some]

private theorem survives_iff_entered (nullFind : NullFind) (ordered : start ≤ finish) (bounded : finish ≤ text.length)
    (fresh : request.requestHeaders = ∅) (some : fields ≠ [])
    (range : slice text start finish = sectionText fields body) :
    Survives nullFind request text start finish fields ↔ ∀ name : Bytes,
      (enterAll ∅ (enteredFields (Buffer.kCRLF ++ body) fields))[name]? = lastValue fields name := by
  have parsed := parseReqHeaders_section nullFind request ordered bounded some range
  constructor
  · intro survives name
    obtain ⟨next, same, right⟩ := survives
    cases parsed.symm.trans same
    rw [← (right name).1, enter, fresh]
  · intro right
    refine ⟨_, parsed, fun name => ?_⟩
    have found : (request.enter (enteredFields (Buffer.kCRLF ++ body) fields)).requestHeaders[name]? =
        lastValue fields name := by
      rw [enter, fresh]
      exact right name
    exact ⟨found, by rw [getHeaders, found]⟩

/-- The fields of a written section are read back exactly when they all have one
name and nothing but white space follows. -/
theorem survives_iff (nullFind : NullFind) (ordered : start ≤ finish) (bounded : finish ≤ text.length)
    (fresh : request.requestHeaders = ∅) (some : fields ≠ [])
    (range : slice text start finish = sectionText fields body) :
    Survives nullFind request text start finish fields ↔
      (∀ first ∈ fields, ∀ second ∈ fields, first.name = second.name) ∧
        ∀ byte ∈ body, isspace byte = true :=
  (survives_iff_entered nullFind ordered bounded fresh some range).trans (enteredFields_right_iff some)

end Written

def ageField : CleanField where
  name := ascii "Age"
  value := ascii "1"
  named := by decide
  nameInline := by decide
  valueInline := by decide
  uncoloned := by decide
  trimmed := by decide

def acceptField : CleanField where
  name := ascii "Accept"
  value := ascii "b"
  named := by decide
  nameInline := by decide
  valueInline := by decide
  uncoloned := by decide
  trimmed := by decide

theorem survives_single :
    Survives .undefined new (ascii "Age: 1\r\n\r\n ") 0 11 [ageField] :=
  (survives_iff .undefined (by decide) (by decide) rfl (by decide)
    (show _ = sectionText [ageField] (ascii " ") by decide)).mpr ⟨by simp, by simp [ascii, isspace]⟩

/-- Of two headers the first gets the second line as a part of its value. -/
theorem first_header_lost :
    let text := ascii "Age: 1\r\nAccept: b\r\n\r\n"
    text = sectionText [ageField, acceptField] [] ∧
      ¬ Survives .undefined new text 0 text.length [ageField, acceptField] := by
  intro text
  have range : slice text 0 text.length = sectionText [ageField, acceptField] [] := by decide
  refine ⟨by decide, fun survives => ?_⟩
  have entered :=
    (survives_iff_entered .undefined (Nat.zero_le _) (Nat.le_refl _) rfl (by decide) range).mp survives
  have oneName := ((enteredFields_right_iff (by decide)).mp entered).1
  have same := oneName ageField (by simp) acceptField (by simp)
  revert same
  decide

end Fields

section Ends

variable {lines : List Bytes} {text tail : Bytes}

/-- Whether the range holds a complete header section: no header at all and the
empty line, or an empty line behind some line. -/
def Complete (range : Bytes) : Prop :=
  Buffer.kCRLF <+: range ∨ Buffer.kCRLF ++ Buffer.kCRLF <:+: range

def RecognisesEnd (nullFind : NullFind) (request : HttpRequest) (text : Bytes) (start finish : Nat) : Prop :=
  ∃ next accepted, parseReqHeaders nullFind request text start finish = .ok (next, accepted) ∧
    (accepted = true ↔ Complete (slice text start finish))

private theorem recognisesEnd_iff_sectionEnds (nullFind : NullFind) (request : HttpRequest) {start finish : Nat}
    (ordered : start ≤ finish) (bounded : finish ≤ text.length)
    (cut : CutInto (slice text start finish) lines tail) :
    RecognisesEnd nullFind request text start finish ↔
      (sectionEnds lines = true ↔ lines.head? = some [] ∨ [] ∈ lines.tail) := by
  have parsed := parseReqHeaders_spec nullFind request ordered bounded cut
  rw [← cut.begins_iff, ← cut.infix_iff]
  constructor
  · intro recognises
    obtain ⟨next, accepted, same, recognised⟩ := recognises
    cases parsed.symm.trans same
    exact recognised
  · exact fun recognised => ⟨_, _, parsed, recognised⟩

/-- The section is recognised where an empty line follows some line, and
otherwise only where no line counts as empty that is not: the range begins with
a line end exactly when some later line has at most two bytes. -/
theorem recognisesEnd_iff (nullFind : NullFind) (request : HttpRequest) {start finish : Nat}
    (ordered : start ≤ finish) (bounded : finish ≤ text.length)
    (cut : CutInto (slice text start finish) lines tail) :
    RecognisesEnd nullFind request text start finish ↔
      [] ∈ lines.tail ∨ (lines.head? = some [] ↔ ∃ line ∈ lines.tail, line.length ≤ 2) := by
  rw [recognisesEnd_iff_sectionEnds nullFind request ordered bounded cut, sectionEnds_iff]
  by_cases empty : [] ∈ lines.tail
  · have short : ∃ line ∈ lines.tail, line.length ≤ 2 := ⟨[], empty, Nat.zero_le 2⟩
    simp [empty, short]
  · simp only [empty, or_false, false_or]
    exact iff_comm

theorem recognisesEnd_single : RecognisesEnd .undefined new (ascii "Host: a\r\n\r\n") 0 11 := by
  have cut : CutInto (joinLines [ascii "Host: a", []] ++ []) [ascii "Host: a", []] [] :=
    cutInto_joinLines (by decide) List.not_mem_nil
  have range : slice (ascii "Host: a\r\n\r\n") 0 11 = joinLines [ascii "Host: a", []] ++ [] := by decide
  rw [← range] at cut
  exact (recognisesEnd_iff .undefined new (by decide) (by decide) cut).mpr (.inl (by decide))

/-- The section of a request without headers is the empty line alone, and it is
not recognised. -/
theorem headerless_unrecognised : ¬ RecognisesEnd .undefined new (ascii "\r\n") 0 2 := by
  have cut : CutInto (joinLines [[]] ++ []) [[]] [] := cutInto_joinLines (by decide) List.not_mem_nil
  have range : slice (ascii "\r\n") 0 2 = joinLines [[]] ++ [] := by decide
  rw [← range] at cut
  rw [recognisesEnd_iff_sectionEnds .undefined new (by decide) (by decide) cut]
  decide

end Ends

end HttpRequest

end NutServer.Net
