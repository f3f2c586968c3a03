import NutServer.Base.LogStream

/-! An item is inserted whole or not at all. A text is admitted where it leaves
a byte free, a number where there are bytes for the longest number and its NUL,
so the array never fills to its end, and no write leaves it. -/

set_option autoImplicit false

namespace NutServer.Base

open Library

namespace RawBuffer

variable {SIZE : Nat} {before middle after : RawBuffer SIZE} {start : Nat} {text more : Bytes}

def toFixedBuffer (buffer : RawBuffer SIZE) : FixedBuffer SIZE where
  data := buffer.contents
  fits := by
    rw [contents, List.length_take]
    exact Nat.le_trans (Nat.min_le_left _ _) buffer.fits

theorem length_contents (buffer : RawBuffer SIZE) : buffer.contents.length = buffer.cur := by
  have size := buffer.size
  have fits := buffer.fits
  rw [contents, List.length_take]
  omega

/-- The array after `text` was written at `start`. -/
structure Wrote (before after : RawBuffer SIZE) (start : Nat) (text : Bytes) : Prop where
  data : after.data = overwrite before.data start text
  cur : after.cur = before.cur
  inside : start + text.length ≤ SIZE

theorem memcpy_spec (buffer : RawBuffer SIZE) (inside : start + text.length ≤ SIZE) :
    ∃ next, buffer.memcpy start text = .ok next ∧ Wrote buffer next start text := by
  rw [memcpy, dif_pos inside]
  exact ⟨_, rfl, rfl, rfl, inside⟩

theorem store_spec (buffer : RawBuffer SIZE) (byte : UInt8) (inside : start < SIZE) :
    ∃ next, buffer.store start byte = .ok next ∧ Wrote buffer next start [byte] :=
  buffer.memcpy_spec inside

theorem Wrote.append (first : Wrote before middle start text) (second : Wrote middle after (start + text.length) more) :
    Wrote before after start (text ++ more) := by
  have inside : start + text.length ≤ before.data.length := by
    rw [before.size]
    exact first.inside
  have room := second.inside
  refine ⟨?_, second.cur.trans first.cur, ?_⟩
  · rw [second.data, first.data, overwrite_append inside]
  · rw [List.length_append]
    omega

theorem Wrote.reverse (wrote : Wrote before middle start (text ++ more)) :
    ∃ next, middle.reverse start (start + text.length) = .ok next ∧ Wrote before next start (text.reverse ++ more) := by
  have room := wrote.inside
  rw [List.length_append] at room
  have inside : start ≤ before.data.length := by
    rw [before.size]
    omega
  have size := middle.size
  have segment : (slice middle.data start (start + text.length)).reverse.length = text.length := by
    rw [List.length_reverse, length_slice]
    omega
  obtain ⟨next, copied, turned⟩ := middle.memcpy_spec
    (show start + (slice middle.data start (start + text.length)).reverse.length ≤ SIZE by omega)
  have ordered : start ≤ start + text.length ∧ start + text.length ≤ SIZE := by omega
  refine ⟨next, by rw [RawBuffer.reverse, if_pos ordered, copied], ?_, turned.cur.trans wrote.cur, ?_⟩
  · rw [turned.data, wrote.data, overwrite_reverse inside]
  · rw [List.length_append, List.length_reverse]
    omega

/-- A text that was written backwards is ended with a NUL and turned round. -/
theorem Wrote.finish (wrote : Wrote before middle start text) {last : Nat} (ends : start + text.length = last)
    (room : last < SIZE) :
    ∃ ended turned, middle.store last 0 = .ok ended ∧ ended.reverse start last = .ok turned ∧
      Wrote before turned start (text.reverse ++ [0]) := by
  subst ends
  obtain ⟨ended, stored, more⟩ := middle.store_spec 0 room
  obtain ⟨turned, reversed, whole⟩ := (wrote.append more).reverse
  exact ⟨ended, turned, stored, reversed, whole⟩

/-- What is written behind the cursor belongs to the contents as far as the cursor is moved. -/
theorem Wrote.add {buffer : RawBuffer SIZE} (wrote : Wrote buffer after buffer.cur (text ++ more)) :
    ∃ next, after.add text.length = .ok next ∧ next.contents = buffer.contents ++ text ∧
      next.cur = buffer.cur + text.length := by
  have room := wrote.inside
  rw [List.length_append] at room
  have inside : after.cur + text.length ≤ SIZE := by
    rw [wrote.cur]
    omega
  have shown : (overwrite buffer.data buffer.cur (text ++ more)).take (buffer.cur + text.length) =
      buffer.data.take buffer.cur ++ text := take_overwrite (by rw [buffer.size]; exact buffer.fits)
  rw [RawBuffer.add, dif_pos inside]
  refine ⟨_, rfl, ?_, ?_⟩
  · simp only [contents, wrote.data, wrote.cur, shown]
  · simp only [wrote.cur]

/-- The array and its cursor are the log buffer that the logging thread passes round. -/
theorem append_toFixedBuffer (buffer : RawBuffer SIZE) (buf : Bytes) :
    (buffer.append buf).map toFixedBuffer = buffer.toFixedBuffer.append buf := by
  have avail : buffer.toFixedBuffer.avail = buffer.avail := by
    simp only [FixedBuffer.avail, toFixedBuffer, length_contents, RawBuffer.avail]
  have size : (buffer.toFixedBuffer.data ++ buf).length = buffer.cur + buf.length := by
    rw [List.length_append, toFixedBuffer, length_contents]
  rw [append, FixedBuffer.append, avail]
  split_ifs with room inside
  · rw [size] at inside
    obtain ⟨copied, same, wrote⟩ := buffer.memcpy_spec inside
    rw [← List.append_nil buf] at wrote
    obtain ⟨next, moved, shown, _⟩ := wrote.add
    simp only [same, Outcome.ok_bind, moved, Except.map, toFixedBuffer, shown]
  · rw [size] at inside
    rw [memcpy, dif_neg inside]
    rfl
  · rfl

/-- A text is appended whole or not at all, and a byte stays free. -/
theorem append_spec {buffer : RawBuffer SIZE} (room : buffer.cur < SIZE) (small : text.length < 2 ^ 31) :
    ∃ next, buffer.append text = .ok next ∧
      (next.contents = buffer.contents ∨ next.contents = buffer.contents ++ text) ∧ next.cur < SIZE := by
  by_cases fits : (text.length : Int) < buffer.avail
  · have avail : buffer.toFixedBuffer.avail = buffer.avail := by
      simp only [FixedBuffer.avail, toFixedBuffer, length_contents, RawBuffer.avail]
    obtain ⟨filled, appended, shown⟩ := FixedBuffer.append_spec small (avail ▸ fits)
    rw [← append_toFixedBuffer, Outcome.map_eq_ok_iff] at appended
    obtain ⟨next, ran, rfl⟩ := appended
    have contents : next.contents = buffer.contents ++ text := shown
    have size := congrArg List.length contents
    rw [List.length_append, length_contents, length_contents] at size
    simp only [RawBuffer.avail] at fits
    exact ⟨next, ran, .inr contents, by omega⟩
  · rw [append, castInt_of_lt small, if_neg fits]
    exact ⟨buffer, rfl, .inl rfl, room⟩

end RawBuffer

section Convert

variable {SIZE : Nat} {start base turns : Nat} {table : Bytes} {origin : Int} {glyph : Char → UInt8}

/-- The digits of a number and of its negative are the same, up to the sign of each. -/
theorem digit_of_signed {sign : Int} (signs : sign = 1 ∨ sign = -1) (value base : Nat) :
    (sign * value).tmod base = sign * (value % base : Nat) ∧ (sign * value).tdiv base = sign * (value / base : Nat) := by
  rcases signs with rfl | rfl
  · simp only [one_mul, Int.ofNat_tmod, Int.ofNat_tdiv, and_self]
  · simp only [neg_mul, one_mul, Int.neg_tmod, Int.neg_tdiv, Int.ofNat_tmod, Int.ofNat_tdiv, and_self]

private theorem watch_digits {sign : Int} (signs : sign = 1 ∨ sign = -1) (positional : 1 < base)
    (reads : ∀ digit < base, entry table (origin + sign * (digit : Nat)) = .ok (glyph digit.digitChar))
    (buffer : RawBuffer SIZE) {value : Nat} (room : start + (numeral glyph base value).length ≤ SIZE)
    (enough : value < turns) :
    ∃ next, watch (digitBody base table origin) turns ⟨buffer, sign * value, start⟩ =
        .ok (next, start + (numeral glyph base value).length) ∧
      buffer.Wrote next start (numeral glyph base value).reverse := by
  induction turns generalizing value buffer start with
  | zero => omega
  | succ turns ih =>
      obtain ⟨remainder, quotient⟩ := digit_of_signed signs value base
      have read := reads (value % base) (Nat.mod_lt value (by omega))
      rw [numeral_eq positional] at room ⊢
      rw [List.length_append, List.length_singleton] at room
      obtain ⟨next, stored, wrote⟩ := buffer.store_spec (glyph (value % base).digitChar) (show start < SIZE by omega)
      by_cases last : value / base = 0
      · have turn : digitBody base table origin ⟨buffer, sign * value, start⟩ = .ok (.leave (next, start + 1)) := by
          simp only [digitBody, remainder, quotient, read, Outcome.ok_bind, stored, last, Nat.cast_zero, mul_zero,
            ne_eq, not_true_eq_false, if_false]
          rfl
        rw [watch_leave turn, if_pos last]
        exact ⟨next, rfl, wrote⟩
      · have unsigned : sign ≠ 0 := by
          rcases signs with rfl | rfl <;> decide
        have nonzero : sign * ((value / base : Nat) : Int) ≠ 0 := mul_ne_zero unsigned (Nat.cast_ne_zero.mpr last)
        have turn : digitBody base table origin ⟨buffer, sign * value, start⟩ =
            .ok (.again ⟨next, sign * (value / base : Nat), start + 1⟩) := by
          simp only [digitBody, remainder, quotient, read, Outcome.ok_bind, stored, if_pos nonzero]
          rfl
        rw [if_neg last] at room ⊢
        have positive : 0 < value := Nat.pos_of_ne_zero fun zero => last (by rw [zero, Nat.zero_div])
        have smaller : value / base < value := Nat.div_lt_self positive positional
        obtain ⟨final, ran, rest⟩ := ih next (show start + 1 + (numeral glyph base (value / base)).length ≤ SIZE by omega)
          (show value / base < turns by omega)
        refine ⟨final, ?_, ?_⟩
        · rw [watch_again turn, ran, List.length_append, List.length_singleton, Nat.add_assoc, Nat.add_comm 1]
        · rw [List.reverse_append]
          exact wrote.append rest

private theorem digitLoop_spec {sign : Int} (signs : sign = 1 ∨ sign = -1) (positional : 1 < base)
    (reads : ∀ digit < base, entry table (origin + sign * (digit : Nat)) = .ok (glyph digit.digitChar))
    (buffer : RawBuffer SIZE) {value : Nat} (room : start + (numeral glyph base value).length ≤ SIZE) :
    ∃ next, digitLoop base table origin buffer start (sign * value) =
        .ok (next, start + (numeral glyph base value).length) ∧
      buffer.Wrote next start (numeral glyph base value).reverse := by
  apply watch_digits signs positional reads buffer room
  rcases signs with rfl | rfl <;> omega

private theorem entry_digits {sign : Int} (signs : sign = 1 ∨ sign = -1) :
    ∀ digit < 10, entry digits (zero + sign * (digit : Nat)) = .ok (digitByte digit.digitChar) := by
  rcases signs with rfl | rfl <;> decide

private theorem digitLoop_decimal (buffer : RawBuffer SIZE) (value : Int) (room : start + (decimal value.natAbs).length ≤ SIZE) :
    ∃ next, digitLoop 10 digits zero buffer start value = .ok (next, start + (decimal value.natAbs).length) ∧
      buffer.Wrote next start (decimal value.natAbs).reverse := by
  have form : value = 1 * (value.natAbs : Int) ∨ value = -1 * (value.natAbs : Int) := by omega
  rcases form with positive | negative
  · have looping := digitLoop_spec (.inl rfl) (by decide) (entry_digits (.inl rfl)) buffer room
    rw [← positive] at looping
    exact looping
  · have looping := digitLoop_spec (.inr rfl) (by decide) (entry_digits (.inr rfl)) buffer room
    rw [← negative] at looping
    exact looping

theorem convert_spec (buffer : RawBuffer SIZE) {value : Int} (room : start + (signed value).length < SIZE) :
    ∃ next, convert buffer start value = .ok (next, (signed value).length) ∧
      buffer.Wrote next start (signed value ++ [0]) := by
  have backwards : (decimal value.natAbs).reverse.length = (decimal value.natAbs).length := List.length_reverse
  unfold convert
  by_cases negative : value < 0
  · have text : signed value = 45 :: decimal value.natAbs := if_pos negative
    rw [text, List.length_cons] at room ⊢
    obtain ⟨looped, ran, wrote⟩ := digitLoop_decimal buffer value
      (show start + (decimal value.natAbs).length ≤ SIZE by omega)
    obtain ⟨minus, stored, more⟩ := looped.store_spec 45
      (show start + (decimal value.natAbs).reverse.length < SIZE by omega)
    have ends : start + ((decimal value.natAbs).reverse ++ [45]).length = start + (decimal value.natAbs).length + 1 := by
      rw [List.length_append, backwards]
      rfl
    obtain ⟨ended, turned, nul, reversed, whole⟩ := (wrote.append more).finish ends (by omega)
    refine ⟨turned, ?_, ?_⟩
    · rw [backwards] at stored
      have size : start + (decimal value.natAbs).length + 1 - start = (decimal value.natAbs).length + 1 := by omega
      simp only [ran, Outcome.ok_bind, if_pos negative, stored, pure, Except.pure, nul, reversed, size]
    · rw [List.reverse_append, List.reverse_reverse] at whole
      exact whole
  · have text : signed value = decimal value.natAbs := if_neg negative
    rw [text] at room ⊢
    obtain ⟨looped, ran, wrote⟩ := digitLoop_decimal buffer value (Nat.le_of_lt room)
    obtain ⟨ended, turned, nul, reversed, whole⟩ := wrote.finish (congrArg (start + ·) backwards) room
    refine ⟨turned, ?_, ?_⟩
    · simp only [ran, Outcome.ok_bind, if_neg negative, pure, Except.pure, nul, reversed, Nat.add_sub_cancel_left]
    · rw [List.reverse_reverse] at whole
      exact whole

example : (convert (.new (List.replicate 8 7) (rfl : _ = 8)) 2 (-120)).map (fun converted => converted.1.data) =
    .ok [7, 7, 45, 49, 50, 48, 0, 7] := by decide

theorem convertHex_spec (buffer : RawBuffer SIZE) {value : UInt64}
    (room : start + (hexadecimal value.toNat).length < SIZE) :
    ∃ next, convertHex buffer start value = .ok (next, (hexadecimal value.toNat).length) ∧
      buffer.Wrote next start (hexadecimal value.toNat ++ [0]) := by
  have reads : ∀ digit < 16, entry digitsHex (0 + 1 * (digit : Nat)) = .ok (digitByte digit.digitChar.toUpper) := by
    decide
  have looping := digitLoop_spec (.inl rfl) (by decide) reads buffer (Nat.le_of_lt room)
  rw [one_mul] at looping
  obtain ⟨looped, ran, wrote⟩ := looping
  obtain ⟨ended, turned, nul, reversed, whole⟩ := wrote.finish (congrArg (start + ·) List.length_reverse) room
  change digitLoop 16 digitsHex 0 buffer start value.toNat =
    .ok (looped, start + (hexadecimal value.toNat).length) at ran
  change looped.store (start + (hexadecimal value.toNat).length) 0 = .ok ended at nul
  change ended.reverse start (start + (hexadecimal value.toNat).length) = .ok turned at reversed
  refine ⟨turned, ?_, ?_⟩
  · simp only [convertHex, ran, Outcome.ok_bind, nul, reversed, Nat.add_sub_cancel_left]
    rfl
  · rw [List.reverse_reverse] at whole
    exact whole

end Convert

def Item.text : Item → Bytes
  | .bool v => if v then ascii "1" else ascii "0"
  | .short v => signed v.toInt
  | .unsignedShort v => decimal v.toNat
  | .int v => signed v.toInt
  | .unsignedInt v => decimal v.toNat
  | .long v | .longLong v => signed v.toInt
  | .unsignedLong v | .unsignedLongLong v => decimal v.toNat
  | .pointer p => ascii "0x" ++ hexadecimal p.toNat
  | .float printed | .double printed | .longDouble printed => printed
  | .char v => [v]
  | .cString none | .unsignedCString none => ascii "(null)"
  | .cString (some str) | .unsignedCString (some str) => str.chars
  | .string v => v

/-- Strings that an `int` can measure, and floating values of at most 31 characters. -/
def Item.Admitted : Item → Prop
  | .float printed | .double printed | .longDouble printed => printed.length ≤ 31
  | .cString (some str) | .unsignedCString (some str) => str.chars.length < 2 ^ 31
  | .string v => v.length < 2 ^ 31
  | _ => True

instance decidableAdmitted : ∀ item : Item, Decidable item.Admitted
  | .float printed | .double printed | .longDouble printed => inferInstanceAs (Decidable (printed.length ≤ 31))
  | .cString (some str) | .unsignedCString (some str) => inferInstanceAs (Decidable (str.chars.length < 2 ^ 31))
  | .string v => inferInstanceAs (Decidable (v.length < 2 ^ 31))
  | .cString none | .unsignedCString none | .bool _ | .char _ | .short _ | .unsignedShort _ | .int _
  | .unsignedInt _ | .long _ | .unsignedLong _ | .longLong _ | .unsignedLongLong _ | .pointer _ => isTrue trivial

namespace LogStream

/-- An insertion that left a byte free. -/
structure Whole (stream next : LogStream) (text : Bytes) : Prop where
  contents : next.buffer.contents = stream.buffer.contents ∨
    next.buffer.contents = stream.buffer.contents ++ text
  room : next.buffer.cur < SmallBuffer

variable {stream : LogStream} {text : Bytes}

theorem new_room {uninitialised : Bytes} (size : uninitialised.length = SmallBuffer) :
    (new uninitialised size).buffer.cur < SmallBuffer := show 0 < 4000 by decide

theorem append_spec (room : stream.buffer.cur < SmallBuffer) (small : text.length < 2 ^ 31) :
    ∃ next, stream.append text = .ok next ∧ stream.Whole next text := by
  obtain ⟨buffer, appended, contents, below⟩ := RawBuffer.append_spec room small
  rw [append, appended]
  exact ⟨⟨buffer⟩, rfl, contents, below⟩

private theorem format_spec {write : RawBuffer SmallBuffer → Nat → Outcome (RawBuffer SmallBuffer × Nat)}
    (room : stream.buffer.cur < SmallBuffer) (short : text.length < kMaxNumericSize)
    (writes : stream.buffer.cur + kMaxNumericSize ≤ SmallBuffer → ∃ after,
      write stream.buffer stream.buffer.cur = .ok (after, text.length) ∧
        stream.buffer.Wrote after stream.buffer.cur (text ++ [0])) :
    ∃ next, stream.format write = .ok next ∧ stream.Whole next text := by
  rw [format]
  by_cases fits : (kMaxNumericSize : Int) ≤ stream.buffer.avail
  · have behind : stream.buffer.cur + kMaxNumericSize ≤ SmallBuffer := by
      rw [RawBuffer.avail] at fits
      omega
    obtain ⟨after, written, wrote⟩ := writes behind
    obtain ⟨next, moved, shown, cursor⟩ := wrote.add
    refine ⟨⟨next⟩, ?_, .inr shown, show next.cur < SmallBuffer by omega⟩
    simp only [if_pos fits, written, Outcome.ok_bind, moved]
    rfl
  · rw [if_neg fits]
    exact ⟨stream, rfl, .inl rfl, room⟩

private theorem formatInteger_spec (room : stream.buffer.cur < SmallBuffer) {value : Int} (word : value.natAbs < 2 ^ 64) :
    ∃ next, stream.formatInteger value = .ok next ∧ stream.Whole next (signed value) := by
  have length : (signed value).length ≤ 21 := length_signed_le (by decide) (word.trans (by decide))
  have max : kMaxNumericSize = 32 := rfl
  exact format_spec room (by omega) fun behind => convert_spec stream.buffer (by omega)

private theorem formatFloating_spec (room : stream.buffer.cur < SmallBuffer) {printed : Bytes} (short : printed.length ≤ 31) :
    ∃ next, stream.formatFloating printed = .ok next ∧ stream.Whole next printed := by
  have max : kMaxNumericSize = 32 := rfl
  refine format_spec room (by omega) fun behind => ?_
  have uncut : printed.take (kMaxNumericSize - 1) = printed := List.take_of_length_le short
  obtain ⟨after, copied, wrote⟩ := stream.buffer.memcpy_spec
    (show stream.buffer.cur + (printed ++ [0]).length ≤ SmallBuffer by rw [List.length_append, List.length_singleton]; omega)
  rw [RawBuffer.snprintf, uncut, copied]
  exact ⟨after, rfl, wrote⟩

private theorem formatPointer_spec (room : stream.buffer.cur < SmallBuffer) (p : UInt64) :
    ∃ next, stream.formatPointer p = .ok next ∧ stream.Whole next (ascii "0x" ++ hexadecimal p.toNat) := by
  have digits : (hexadecimal p.toNat).length ≤ 16 := length_numeral_le (by decide) (by decide) p.toNat_lt
  have max : kMaxNumericSize = 32 := rfl
  have size : (ascii "0x" ++ hexadecimal p.toNat).length = (hexadecimal p.toNat).length + 2 := by
    rw [List.length_append, Nat.add_comm]
    rfl
  refine format_spec room (by omega) fun behind => ?_
  obtain ⟨first, storedZero, wroteZero⟩ := stream.buffer.store_spec 48 (show stream.buffer.cur < SmallBuffer from room)
  obtain ⟨second, storedX, wroteX⟩ := first.store_spec 120 (show stream.buffer.cur + 1 < SmallBuffer by omega)
  obtain ⟨after, converted, wroteHex⟩ := convertHex_spec second
    (show stream.buffer.cur + 2 + (hexadecimal p.toNat).length < SmallBuffer by omega)
  refine ⟨after, ?_, (wroteZero.append wroteX).append wroteHex⟩
  simp only [storedZero, Outcome.ok_bind, storedX, converted, size]
  rfl

private theorem formatNatural_spec (room : stream.buffer.cur < SmallBuffer) {value : Nat} (word : value < 2 ^ 64) :
    ∃ next, stream.formatInteger value = .ok next ∧ stream.Whole next (decimal value) := by
  have unsigned : signed value = decimal value := if_neg (by omega)
  obtain ⟨next, formatted, whole⟩ := formatInteger_spec room (show (value : Int).natAbs < 2 ^ 64 by omega)
  rw [unsigned] at whole
  exact ⟨next, formatted, whole⟩

private theorem appendCString_spec (room : stream.buffer.cur < SmallBuffer) {str : Option CString}
    (admitted : (Item.cString str).Admitted) :
    ∃ next, stream.appendCString str = .ok next ∧ stream.Whole next (Item.cString str).text := by
  cases str with
  | none => exact append_spec room (by decide)
  | some str => exact append_spec room admitted

theorem insert_spec (room : stream.buffer.cur < SmallBuffer) {item : Item} (admitted : item.Admitted) :
    ∃ next, stream.insert item = .ok next ∧ stream.Whole next item.text := by
  cases item with
  | bool v =>
      cases v with
      | false => exact append_spec room (by decide)
      | true => exact append_spec room (by decide)
  | char v => exact append_spec room (show 1 < 2 ^ 31 by decide)
  | string v => exact append_spec room admitted
  | cString str => exact appendCString_spec room admitted
  | unsignedCString str =>
      cases str with
      | none => exact appendCString_spec room (show (Item.cString none).Admitted from trivial)
      | some str => exact appendCString_spec room (show (Item.cString (some str)).Admitted from admitted)
  | float printed | double printed | longDouble printed => exact formatFloating_spec room admitted
  | pointer p => exact formatPointer_spec room p
  | short v =>
      have least := v.le_toInt
      have below := v.toInt_lt
      rw [insert, Int16.toInt_toInt32]
      exact formatInteger_spec room (by omega)
  | int v =>
      have least := v.le_toInt
      have below := v.toInt_lt
      exact formatInteger_spec room (by omega)
  | long v | longLong v =>
      have least := v.le_toInt
      have below := v.toInt_lt
      exact formatInteger_spec room (by omega)
  | unsignedShort v =>
      rw [insert, UInt16.toNat_toUInt32]
      exact formatNatural_spec room (v.toNat_lt.trans (by decide))
  | unsignedInt v => exact formatNatural_spec room (v.toNat_lt.trans (by decide))
  | unsignedLong v | unsignedLongLong v => exact formatNatural_spec room v.toNat_lt

theorem insertAll_spec (room : stream.buffer.cur < SmallBuffer) {items : List Item}
    (admitted : ∀ item ∈ items, item.Admitted) :
    ∃ final, stream.insertAll items = .ok final ∧ final.buffer.cur < SmallBuffer := by
  induction items generalizing stream with
  | nil => exact ⟨stream, rfl, room⟩
  | cons item items ih =>
      obtain ⟨next, inserted, whole⟩ := insert_spec room (admitted item List.mem_cons_self)
      obtain ⟨final, ran, below⟩ := ih whole.room fun other member => admitted other (List.mem_cons_of_mem item member)
      refine ⟨final, ?_, below⟩
      rw [insertAll, List.foldlM_cons, inserted]
      exact ran

end LogStream

end NutServer.Base
