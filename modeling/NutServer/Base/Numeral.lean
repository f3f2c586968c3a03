import NutServer.Base.Outcome

/-!
# Decimal numerals

The digits of a number as bytes, and what a reader of digits makes of them.
-/

set_option autoImplicit false

namespace NutServer.Base

def digitByte (char : Char) : UInt8 := char.toNat.toUInt8

def decimal (value : Nat) : Bytes := (Nat.toDigits 10 value).map digitByte

/-- The digits of a number in some base, each as its glyph. -/
def numeral (glyph : Char → UInt8) (base value : Nat) : Bytes := (Nat.toDigits base value).map glyph

def hexadecimal (value : Nat) : Bytes := numeral (fun char => digitByte char.toUpper) 16 value

def signed (value : Int) : Bytes :=
  if value < 0 then ascii "-" ++ decimal value.natAbs else decimal value.natAbs

def isDecimalDigit (byte : UInt8) : Bool := 48 ≤ byte && byte ≤ 57

/-- The value of a nonempty string of digits. -/
def decimalValue (digits : Bytes) : Option Nat :=
  if digits ≠ [] ∧ digits.all isDecimalDigit then
    some (digits.foldl (fun value digit => 10 * value + (digit.toNat - 48)) 0)
  else none

section Digits

variable {glyph : Char → UInt8} {base value bound : Nat}

/-- The last digit comes off the end. -/
theorem numeral_eq (positional : 1 < base) :
    numeral glyph base value =
      (if value / base = 0 then [] else numeral glyph base (value / base)) ++ [glyph (value % base).digitChar] := by
  have small : value / base = 0 ↔ value < base := Nat.div_eq_zero_iff_lt (by omega)
  rw [numeral, Nat.toDigits_eq_if positional]
  by_cases last : value < base
  · rw [if_pos last, if_pos (small.mpr last), Nat.mod_eq_of_lt last]
    rfl
  · rw [if_neg last, if_neg (mt small.mp last), List.map_append]
    rfl

private theorem mem_numeral (positional : 1 < base) {byte : UInt8} (member : byte ∈ numeral glyph base value) :
    ∃ digit < base, byte = glyph digit.digitChar := by
  induction value using Nat.strong_induction_on with
  | _ value ih =>
      rw [numeral_eq positional, List.mem_append, List.mem_singleton] at member
      cases member with
      | inr last => exact ⟨value % base, Nat.mod_lt value (by omega), last⟩
      | inl front =>
          by_cases small : value / base = 0
          · rw [if_pos small] at front
            exact absurd front List.not_mem_nil
          · rw [if_neg small] at front
            have positive : 0 < value := Nat.pos_of_ne_zero fun zero => small (by rw [zero, Nat.zero_div])
            exact ih (value / base) (Nat.div_lt_self positive positional) front

/-- The first digit of a number is not zero, unless the number is. -/
theorem head_numeral (positional : 1 < base) (positive : 0 < value) :
    ∃ digit, 0 < digit ∧ digit < base ∧ (numeral glyph base value).head? = some (glyph digit.digitChar) := by
  induction value using Nat.strong_induction_on with
  | _ value ih =>
      rw [numeral_eq positional]
      by_cases small : value / base = 0
      · have below : value < base := (Nat.div_eq_zero_iff_lt (by omega)).mp small
        rw [if_pos small, Nat.mod_eq_of_lt below]
        exact ⟨value, positive, below, rfl⟩
      · obtain ⟨digit, nonzero, inside, first⟩ :=
          ih (value / base) (Nat.div_lt_self positive positional) (Nat.pos_of_ne_zero small)
        refine ⟨digit, nonzero, inside, ?_⟩
        rw [if_neg small, List.head?_append, first]
        rfl

theorem numeral_ne_nil (positional : 1 < base) : numeral glyph base value ≠ [] := by
  rw [numeral_eq positional]
  exact List.append_ne_nil_of_right_ne_nil _ (List.cons_ne_nil _ _)

/-- The digits from the left, each by its value. -/
def readDigits (base : Nat) (digitValue : UInt8 → Option Nat) (text : Bytes) : Option Nat :=
  text.foldlM (fun value byte => (digitValue byte).map (base * value + ·)) 0

private theorem readDigits_numeral {digitValue : UInt8 → Option Nat} (positional : 1 < base)
    (reads : ∀ digit < base, digitValue (glyph digit.digitChar) = some digit) :
    readDigits base digitValue (numeral glyph base value) = some value := by
  induction value using Nat.strong_induction_on with
  | _ value ih =>
      have last := reads (value % base) (Nat.mod_lt value (by omega))
      have whole := Nat.div_add_mod value base
      rw [numeral_eq positional, readDigits, List.foldlM_append]
      by_cases small : value / base = 0
      · rw [small, Nat.mul_zero, Nat.zero_add] at whole
        rw [whole] at last
        simp [small, whole, last]
      · have positive : 0 < value := Nat.pos_of_ne_zero fun zero => small (by rw [zero, Nat.zero_div])
        have front := ih (value / base) (Nat.div_lt_self positive positional)
        rw [readDigits] at front
        rw [if_neg small, front]
        simp [last, whole]

theorem length_numeral_le (positional : 1 < base) (some : 0 < bound) (small : value < base ^ bound) :
    (numeral glyph base value).length ≤ bound := by
  rw [numeral, List.length_map]
  exact (Nat.length_toDigits_le_iff positional some).mpr small

theorem length_signed_le {value : Int} (some : 0 < bound) (small : value.natAbs < 10 ^ bound) :
    (signed value).length ≤ bound + 1 := by
  have digits : (decimal value.natAbs).length ≤ bound := length_numeral_le (by decide) some small
  rw [signed]
  split_ifs
  · rw [List.length_append]
    exact Nat.le_trans (Nat.add_le_add_left digits 1) (by omega)
  · omega

end Digits

variable {char : Char}

private theorem toNat_of_isDigit (digit : char.isDigit = true) : 48 ≤ char.toNat ∧ char.toNat ≤ 57 := by
  simp only [Char.isDigit, Bool.and_eq_true, decide_eq_true_eq, UInt32.le_iff_toNat_le] at digit
  exact digit

private theorem toNat_digitByte (digit : char.isDigit = true) : (digitByte char).toNat = char.toNat := by
  obtain ⟨_, atMost⟩ := toNat_of_isDigit digit
  rw [digitByte, Nat.toUInt8_eq, UInt8.toNat_ofNat']
  omega

private theorem isDecimalDigit_digitByte (digit : char.isDigit = true) : isDecimalDigit (digitByte char) = true := by
  have value := toNat_digitByte digit
  obtain ⟨least, atMost⟩ := toNat_of_isDigit digit
  simp only [isDecimalDigit, Bool.and_eq_true, decide_eq_true_eq, UInt8.le_iff_toNat_le, value]
  exact ⟨least, atMost⟩

private theorem foldl_digitByte {chars : List Char} (digits : ∀ char ∈ chars, char.isDigit = true) (first : Nat) :
    (chars.map digitByte).foldl (fun value digit => 10 * value + (digit.toNat - 48)) first =
      Nat.ofDigitChars 10 chars first := by
  induction chars generalizing first with
  | nil => rfl
  | cons char chars ih =>
      have others := ih fun other member => digits other (List.mem_cons_of_mem _ member)
      rw [List.map_cons, List.foldl_cons, others, toNat_digitByte (digits char List.mem_cons_self),
        Nat.ofDigitChars_cons]
      rfl

theorem decimalValue_decimal (value : Nat) : decimalValue (decimal value) = some value := by
  have digits : ∀ char ∈ Nat.toDigits 10 value, char.isDigit = true :=
    fun char member => Nat.isDigit_of_mem_toDigits (by decide) (by decide) member
  have nonempty : decimal value ≠ [] := by simp [decimal]
  have all : (decimal value).all isDecimalDigit = true := by
    rw [decimal, List.all_map, List.all_eq_true]
    exact fun char member => isDecimalDigit_digitByte (digits char member)
  rw [decimalValue, if_pos ⟨nonempty, all⟩, decimal, foldl_digitByte digits, Nat.ofDigitChars_ten_toDigits]

/-- The value of a decimal text with or without a sign. -/
def integerValue (text : Bytes) : Option Int :=
  if text.head? = some 45 then (decimalValue text.tail).map fun value : Nat => -(value : Int)
  else (decimalValue text).map fun value : Nat => (value : Int)

def isHexDigit (byte : UInt8) : Bool := isDecimalDigit byte || (65 ≤ byte && byte ≤ 70)

def hexDigitValue (byte : UInt8) : Option Nat :=
  if isDecimalDigit byte then some (byte.toNat - 48)
  else if isHexDigit byte then some (byte.toNat - 55)
  else none

def hexadecimalValue (text : Bytes) : Option Nat :=
  if text = [] then none else readDigits 16 hexDigitValue text

/-- The one decimal text of a number. -/
structure CanonicalDecimal (text : Bytes) (value : Int) : Prop where
  form : ∃ magnitude : Bytes, text = (if value < 0 then ascii "-" else []) ++ magnitude ∧ magnitude ≠ [] ∧
    (∀ byte ∈ magnitude, isDecimalDigit byte = true) ∧ (magnitude.head? = some 48 → value = 0 ∧ magnitude = ascii "0")
  sign : text.head? = some 45 ↔ value < 0
  reads : integerValue text = some value

/-- The one upper-case hexadecimal text of a number. -/
structure CanonicalHex (text : Bytes) (value : Nat) : Prop where
  nonempty : text ≠ []
  digits : ∀ byte ∈ text, isHexDigit byte = true
  leading : text.head? = some 48 → value = 0 ∧ text = ascii "0"
  reads : hexadecimalValue text = some value

theorem isDecimalDigit_of_mem_decimal {value : Nat} {byte : UInt8} (member : byte ∈ decimal value) :
    isDecimalDigit byte = true := by
  obtain ⟨digit, inside, rfl⟩ := mem_numeral (show 1 < 10 by decide) member
  have digits : ∀ digit < 10, isDecimalDigit (digitByte digit.digitChar) = true := by decide
  exact digits digit inside

private theorem zero_of_leading {glyph : Char → UInt8} {base value : Nat} (positional : 1 < base)
    (nonzero : ∀ digit < base, 0 < digit → glyph digit.digitChar ≠ 48)
    (leading : (numeral glyph base value).head? = some 48) : value = 0 := by
  by_contra some
  obtain ⟨digit, positive, inside, first⟩ := head_numeral positional (Nat.pos_of_ne_zero some)
  exact nonzero digit inside positive (Option.some.inj (first.symm.trans leading))

theorem canonicalDecimal_signed (value : Int) : CanonicalDecimal (signed value) value := by
  have unsigned : (decimal value.natAbs).head? ≠ some 45 := by
    intro first
    have digit := isDecimalDigit_of_mem_decimal (List.mem_of_head? first)
    revert digit
    decide
  have text : signed value = (if value < 0 then ascii "-" else []) ++ decimal value.natAbs := by
    rw [signed]
    split_ifs <;> rfl
  have sign : (signed value).head? = some 45 ↔ value < 0 := by
    rw [text]
    split_ifs with negative
    · exact iff_of_true rfl negative
    · exact iff_of_false unsigned negative
  refine ⟨⟨decimal value.natAbs, text, numeral_ne_nil (by decide), ?_, ?_⟩, sign, ?_⟩
  · intro byte member
    exact isDecimalDigit_of_mem_decimal member
  · intro leading
    have zero := zero_of_leading (by decide) (by decide) leading
    rw [zero]
    exact ⟨Int.natAbs_eq_zero.mp zero, rfl⟩
  · rw [integerValue]
    by_cases negative : value < 0
    · have magnitude : -(value.natAbs : Int) = value := by omega
      rw [if_pos (sign.mpr negative), text, if_pos negative]
      change (decimalValue (decimal value.natAbs)).map _ = _
      rw [decimalValue_decimal, Option.map_some, magnitude]
    · have magnitude : (value.natAbs : Int) = value := by omega
      rw [if_neg (mt sign.mp negative), text, if_neg negative, List.nil_append, decimalValue_decimal, Option.map_some,
        magnitude]

theorem canonicalHex_hexadecimal (value : Nat) : CanonicalHex (hexadecimal value) value := by
  have nonempty : hexadecimal value ≠ [] := numeral_ne_nil (by decide)
  refine ⟨nonempty, ?_, ?_, ?_⟩
  · intro byte member
    obtain ⟨digit, inside, rfl⟩ := mem_numeral (show 1 < 16 by decide) member
    have digits : ∀ digit < 16, isHexDigit (digitByte digit.digitChar.toUpper) = true := by decide
    exact digits digit inside
  · intro leading
    have zero := zero_of_leading (by decide) (by decide) leading
    rw [zero]
    exact ⟨rfl, rfl⟩
  · rw [hexadecimalValue, if_neg nonempty]
    exact readDigits_numeral (by decide) (by decide)

end NutServer.Base
