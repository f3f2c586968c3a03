import NutServer.Base.LogStreamProperties

/-! What a text of any length and a number of any value do to the buffer. The
room test looks at the low 32 bits of a length only; the numbers are exact. -/

set_option autoImplicit false

namespace NutServer.Base

open Library

private theorem castInt_eq (len : Nat) :
    castInt len = if len % 2 ^ 32 < 2 ^ 31 then ((len % 2 ^ 32 : Nat) : Int) else (len % 2 ^ 32 : Nat) - 2 ^ 32 := by
  rw [castInt, BitVec.toInt_eq_toNat_cond, BitVec.toNat_ofNat]
  split_ifs with first second
  · rfl
  · omega
  · omega
  · rfl

section Room

variable {SIZE : Nat}

/-- The room test is right about texts that fit, and about those whose length,
taken as an `int`, is not too small. -/
def RawBuffer.RoomTestRight (buffer : RawBuffer SIZE) (len : Nat) : Prop :=
  (len : Int) < buffer.avail ∨ (buffer.avail ≤ (len % 2 ^ 32 : Nat) ∧ len % 2 ^ 32 < 2 ^ 31)

private theorem RawBuffer.append_of_right {buffer : RawBuffer SIZE} {buf : Bytes} (right : buffer.RoomTestRight buf.length)
    (int : SIZE < 2 ^ 31) :
    ∃ next, buffer.append buf = .ok next ∧
      (next = buffer ∨ next.contents = buffer.contents ++ buf) := by
  have cast := castInt_eq buf.length
  have fits := buffer.fits
  cases right with
  | inl small =>
      have isInt : buf.length < 2 ^ 31 := by
        rw [avail] at small
        omega
      have inside : buffer.cur + buf.length ≤ SIZE := by
        rw [avail] at small
        omega
      obtain ⟨copied, same, wrote⟩ := buffer.memcpy_spec inside
      rw [← List.append_nil buf] at wrote
      obtain ⟨next, moved, shown, _⟩ := wrote.add
      refine ⟨next, ?_, .inr shown⟩
      rw [append, castInt_of_lt isInt, if_pos small, same]
      exact moved
  | inr large =>
      obtain ⟨enough, isInt⟩ := large
      rw [if_pos isInt] at cast
      refine ⟨buffer, ?_, .inl rfl⟩
      rw [append, cast, if_neg (not_lt.mpr enough)]
      rfl

/-- Where the test is wrong, the text is copied over the end of the array. -/
theorem RawBuffer.append_of_wrong {buffer : RawBuffer SIZE} {buf : Bytes}
    (wrong : ¬ buffer.RoomTestRight buf.length) (int : SIZE < 2 ^ 31) : buffer.append buf = .error .range := by
  have cast := castInt_eq buf.length
  have fits := buffer.fits
  rw [RoomTestRight, not_or, not_and] at wrong
  obtain ⟨large, narrow⟩ := wrong
  rw [avail] at large narrow
  have admitted : castInt buf.length < buffer.avail := by
    rw [cast, avail]
    split_ifs with isInt
    · by_contra enough
      exact narrow (by omega) isInt
    · omega
  have outside : ¬ buffer.cur + buf.length ≤ SIZE := by
    intro inside
    have exact : buf.length % 2 ^ 32 = buf.length := Nat.mod_eq_of_lt (by omega)
    rw [exact] at narrow
    exact narrow (by omega) (by omega)
  rw [append, if_pos admitted, memcpy, dif_neg outside]
  rfl

end Room

namespace LogStream

/-- The text is copied whole inside the array, or the buffer stays as it is. -/
def CopiesOrKeeps (stream : LogStream) (v : Bytes) : Prop :=
  ∃ next, stream.insert (.string v) = .ok next ∧
    (next = stream ∨ next.buffer.contents = stream.buffer.contents ++ v)

/-- A `std::string` of any length is inserted whole or not at all exactly when
it fits, or its length modulo 2^32 is an `int` that does not fit. -/
theorem copiesOrKeeps_iff (stream : LogStream) (v : Bytes) :
    stream.CopiesOrKeeps v ↔
      (v.length : Int) < stream.buffer.avail ∨
        (stream.buffer.avail ≤ (v.length % 2 ^ 32 : Nat) ∧ v.length % 2 ^ 32 < 2 ^ 31) := by
  constructor
  · intro sound
    by_contra wrong
    obtain ⟨next, inserted, _⟩ := sound
    have overrun := RawBuffer.append_of_wrong wrong (show SmallBuffer < 2 ^ 31 by decide)
    rw [insert, append, overrun] at inserted
    cases inserted
  · intro right
    obtain ⟨buffer, appended, kept⟩ := RawBuffer.append_of_right right (show SmallBuffer < 2 ^ 31 by decide)
    refine ⟨⟨buffer⟩, ?_, ?_⟩
    · rw [insert, append, appended]
      rfl
    · cases kept with
      | inl same => exact .inl (congrArg LogStream.mk same)
      | inr shown => exact .inr shown

/-- A string of 2 GiB has a negative length for the test, and is copied over
the end of the empty buffer. -/
theorem two_gigabytes_overrun :
    let stream := new (List.replicate SmallBuffer 0) List.length_replicate
    let v : Bytes := List.replicate (2 ^ 31) 97
    stream.insert (.string v) = .error .range ∧ ¬ stream.CopiesOrKeeps v := by
  intro stream v
  have size : v.length = 2 ^ 31 := List.length_replicate
  have empty : stream.buffer.avail = 4000 := rfl
  have wrong : ¬ stream.buffer.RoomTestRight v.length := by
    rw [RawBuffer.RoomTestRight, size, empty]
    decide
  have overrun : stream.insert (.string v) = .error .range := by
    rw [insert, append, RawBuffer.append_of_wrong wrong (show SmallBuffer < 2 ^ 31 by decide)]
    rfl
  refine ⟨overrun, ?_⟩
  intro sound
  obtain ⟨next, inserted, _⟩ := sound
  cases overrun.symm.trans inserted

end LogStream

section Numbers

variable {SIZE : Nat}

/-- `convert` writes the one decimal text of the value and its NUL at `buf`, and
the length of the text is returned. -/
def Formats (buffer : RawBuffer SIZE) (buf : Nat) (value : Int) : Prop :=
  ∃ next text, convert buffer buf value = .ok (next, text.length) ∧ buffer.Wrote next buf (text ++ [0]) ∧
    0 ∉ text ∧ CanonicalDecimal text value ∧ text.length + 1 ≤ LogStream.kMaxNumericSize

/-- As `Formats`, for `convertHex` behind the two bytes of `0x`. -/
def FormatsHex (buffer : RawBuffer SIZE) (buf : Nat) (value : UInt64) : Prop :=
  ∃ next text, convertHex buffer (buf + 2) value = .ok (next, text.length) ∧
    buffer.Wrote next (buf + 2) (text ++ [0]) ∧ 0 ∉ text ∧ CanonicalHex text value.toNat ∧
    2 + text.length + 1 ≤ LogStream.kMaxNumericSize

variable {buffer : RawBuffer SIZE} {buf : Nat}

private theorem zero_notMem_signed (value : Int) : 0 ∉ signed value := by
  intro member
  have digits : ∀ byte ∈ decimal value.natAbs, byte ≠ 0 := by
    intro byte inside same
    subst same
    exact absurd (isDecimalDigit_of_mem_decimal inside) (by decide)
  rw [signed] at member
  split_ifs at member with negative
  · cases List.mem_cons.mp member with
    | inl minus => exact absurd minus (by decide)
    | inr inside => exact digits 0 inside rfl
  · exact digits 0 member rfl

private theorem formats_of_word (room : buf + LogStream.kMaxNumericSize ≤ SIZE) {value : Int} (word : value.natAbs < 2 ^ 64) :
    Formats buffer buf value := by
  have length : (signed value).length ≤ 21 := length_signed_le (by decide) (word.trans (by decide))
  have max : LogStream.kMaxNumericSize = 32 := rfl
  obtain ⟨next, converted, wrote⟩ := convert_spec buffer (show buf + (signed value).length < SIZE by omega)
  exact ⟨next, signed value, converted, wrote, zero_notMem_signed value, canonicalDecimal_signed value, by omega⟩

private theorem formatsHex_of_room (room : buf + LogStream.kMaxNumericSize ≤ SIZE) (value : UInt64) :
    FormatsHex buffer buf value := by
  have digits : (hexadecimal value.toNat).length ≤ 16 := length_numeral_le (by decide) (by decide) value.toNat_lt
  have max : LogStream.kMaxNumericSize = 32 := rfl
  have canonical := canonicalHex_hexadecimal value.toNat
  obtain ⟨next, converted, wrote⟩ := convertHex_spec buffer
    (show buf + 2 + (hexadecimal value.toNat).length < SIZE by omega)
  have noNul : 0 ∉ hexadecimal value.toNat := fun member => absurd (canonical.digits 0 member) (by decide)
  exact ⟨next, hexadecimal value.toNat, converted, wrote, noNul, canonical, by omega⟩

/-- Wherever there are `kMaxNumericSize` bytes, every value of the six integer
types and of `uintptr_t` is formatted exactly. -/
theorem formats_exactly (buffer : RawBuffer SIZE) (buf : Nat) (room : buf + LogStream.kMaxNumericSize ≤ SIZE) :
    (∀ v : Int32, Formats buffer buf v.toInt) ∧ (∀ v : UInt32, Formats buffer buf v.toNat) ∧
      (∀ v : Int64, Formats buffer buf v.toInt) ∧ (∀ v : UInt64, Formats buffer buf v.toNat) ∧
      ∀ p : UInt64, FormatsHex buffer buf p := by
  refine ⟨?_, ?_, ?_, ?_, ?_⟩
  · intro v
    have least := v.le_toInt
    have below := v.toInt_lt
    exact formats_of_word room (by omega)
  · intro v
    have below := v.toNat_lt
    exact formats_of_word room (by omega)
  · intro v
    have least := v.le_toInt
    have below := v.toInt_lt
    exact formats_of_word room (by omega)
  · intro v
    have below := v.toNat_lt
    exact formats_of_word room (by omega)
  · intro p
    exact formatsHex_of_room room p

theorem formats_exactly_minimum :
    Formats (.new (List.replicate 40 7) (rfl : _ = 40)) 8 Int64.minValue.toInt ∧
      FormatsHex (.new (List.replicate 40 7) (rfl : _ = 40)) 8 0 :=
  have exact := formats_exactly (.new (List.replicate 40 7) (rfl : _ = 40)) 8 (by decide)
  ⟨exact.2.2.1 Int64.minValue, exact.2.2.2.2 0⟩

end Numbers

end NutServer.Base
