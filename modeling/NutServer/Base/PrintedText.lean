import NutServer.Base.LogStreamProperties
import NutServer.Base.Timestamp
import NutServer.Library.Lines

/-!
# Printed texts

The two functions of the base library that print into a `char` array:
`Timestamp::toString` and `toHostPort`. What they print fits its array and is
read back.
-/

set_option autoImplicit false

namespace NutServer.Base

open Library

/-- `std::string(buf)`: a reader that finds no NUL leaves the array. -/
def RawBuffer.toStdString {SIZE : Nat} (buf : RawBuffer SIZE) : Outcome Bytes :=
  if 0 ∈ buf.data then .ok (buf.data.takeWhile (· ≠ 0)) else .error .range

/-- `%0*d`. The zeros stand behind the sign, which counts in the width. -/
def zeroPadded (width : Nat) (value : Int) : Bytes :=
  let sign := if value < 0 then ascii "-" else []
  let magnitude := decimal value.natAbs
  sign ++ List.replicate (width - (sign.length + magnitude.length)) 48 ++ magnitude

namespace Timestamp

/-- `/` and `%` round towards zero. -/
def toString (timestamp : Timestamp) : Outcome Bytes := do
  let buf : RawBuffer 32 := .new (List.replicate 32 0) List.length_replicate
  let seconds := timestamp.tdiv kMicroSecondsPerSeconds
  let microseconds := timestamp.tmod kMicroSecondsPerSeconds
  let (buf, _) ← buf.snprintf 0 32 (signed seconds ++ ascii "." ++ zeroPadded 6 microseconds)
  buf.toStdString

/-- A reader of what `toString` writes. -/
def ofText (text : Bytes) : Option Timestamp := do
  let (seconds, microseconds) ← splitFirst (ascii ".") text
  return (← integerValue seconds) * kMicroSecondsPerSeconds + (← integerValue microseconds)

end Timestamp

/-- The address and the port as they lie in memory, the first byte of each first. -/
structure SockaddrIn where
  sin_addr : UInt8 × UInt8 × UInt8 × UInt8
  sin_port : UInt8 × UInt8
  deriving DecidableEq, Repr

def ntohs (netshort : UInt8 × UInt8) : Nat := 256 * netshort.1.toNat + netshort.2.toNat

/-- The dotted quad that `inet_ntop` stores for `AF_INET`. -/
def dottedQuad (address : UInt8 × UInt8 × UInt8 × UInt8) : Bytes :=
  decimal address.1.toNat ++ ascii "." ++ (decimal address.2.1.toNat ++ ascii "." ++
    (decimal address.2.2.1.toNat ++ ascii "." ++ decimal address.2.2.2.toNat))

/-- Without room for the text and its NUL nothing is stored. -/
def inet_ntop {SIZE : Nat} (host : RawBuffer SIZE) (address : UInt8 × UInt8 × UInt8 × UInt8) :
    Outcome (RawBuffer SIZE) :=
  if (dottedQuad address).length < SIZE then host.memcpy 0 (dottedQuad address ++ [0]) else return host

def INET_ADDRSTRLEN : Nat := 16

/-- The array `"INVALID"` is filled up with NULs. -/
def toHostPort {SIZE : Nat} (buf : RawBuffer SIZE) (addr : SockaddrIn) : Outcome (RawBuffer SIZE) := do
  let host : RawBuffer INET_ADDRSTRLEN := .new (ascii "INVALID" ++ List.replicate 9 0) rfl
  let host ← inet_ntop host addr.sin_addr
  let port := ntohs addr.sin_port
  let (buf, _) ← buf.snprintf 0 SIZE ((← host.toStdString) ++ ascii ":" ++ decimal port)
  return buf

/-- `inetAddr::getAddrString` and `inetAddr::toHostPort`, which do the same. -/
def SockaddrIn.getAddrString (uninitialised : Bytes) (size : uninitialised.length = 32) (addr : SockaddrIn) :
    Outcome Bytes := do
  let buf ← toHostPort (.new uninitialised size) addr
  buf.toStdString

/-- A reader of what `getAddrString` returns: the bytes of the address and the port. -/
def ofHostPort (text : Bytes) : Option ((Nat × Nat × Nat × Nat) × Nat) := do
  let (host, port) ← splitFirst (ascii ":") text
  let (first, host) ← splitFirst (ascii ".") host
  let (second, host) ← splitFirst (ascii ".") host
  let (third, fourth) ← splitFirst (ascii ".") host
  return ((← decimalValue first, ← decimalValue second, ← decimalValue third, ← decimalValue fourth),
    ← decimalValue port)

section Numerals

variable {value : Int} {width count : Nat} {byte : UInt8}

private theorem zeroPadded_zero (value : Int) : zeroPadded 0 value = signed value := by
  rw [zeroPadded, signed]
  split_ifs <;> simp

private theorem isDecimalDigit_of_mem_magnitude {magnitude : Nat}
    (member : byte ∈ List.replicate count 48 ++ decimal magnitude) : isDecimalDigit byte = true := by
  rcases List.mem_append.mp member with zeros | digits
  · rw [List.eq_of_mem_replicate zeros]
    rfl
  · exact isDecimalDigit_of_mem_decimal digits

private theorem mem_zeroPadded (member : byte ∈ zeroPadded width value) : byte = 45 ∨ isDecimalDigit byte = true := by
  rw [zeroPadded, List.append_assoc] at member
  rcases List.mem_append.mp member with sign | magnitude
  · apply Or.inl
    split_ifs at sign
    · exact List.mem_singleton.mp sign
    · cases sign
  · exact .inr (isDecimalDigit_of_mem_magnitude magnitude)

/-- No other byte than digits and a sign stands in a number. -/
theorem not_mem_zeroPadded (outside : isDecimalDigit byte = false) (noSign : byte ≠ 45) :
    byte ∉ zeroPadded width value := by
  intro member
  rcases mem_zeroPadded member with sign | digit
  · exact noSign sign
  · rw [outside] at digit
    cases digit

theorem not_mem_signed (outside : isDecimalDigit byte = false) (noSign : byte ≠ 45) : byte ∉ signed value := by
  rw [← zeroPadded_zero]
  exact not_mem_zeroPadded outside noSign

private theorem not_mem_decimal (outside : isDecimalDigit byte = false) (magnitude : Nat) : byte ∉ decimal magnitude := by
  intro member
  have digit := isDecimalDigit_of_mem_decimal member
  rw [outside] at digit
  cases digit

private theorem decimalValue_leading (count magnitude : Nat) :
    decimalValue (List.replicate count 48 ++ decimal magnitude) = some magnitude := by
  induction count with
  | zero => exact decimalValue_decimal magnitude
  | succ count ih =>
      have nonempty : List.replicate count 48 ++ decimal magnitude ≠ [] :=
        List.append_ne_nil_of_right_ne_nil _ (numeral_ne_nil (by decide))
      have digits : (List.replicate count 48 ++ decimal magnitude).all isDecimalDigit = true :=
        List.all_eq_true.mpr fun byte member => isDecimalDigit_of_mem_magnitude member
      have more : (48 :: (List.replicate count 48 ++ decimal magnitude)).all isDecimalDigit = true := by
        rw [List.all_cons, digits]
        rfl
      rw [decimalValue, if_pos ⟨nonempty, digits⟩] at ih
      rw [List.replicate_succ, List.cons_append, decimalValue, if_pos ⟨List.cons_ne_nil _ _, more⟩]
      exact ih

private theorem integerValue_zeroPadded (width : Nat) (value : Int) : integerValue (zeroPadded width value) = some value := by
  rw [zeroPadded]
  by_cases negative : value < 0
  · have magnitude : -(value.natAbs : Int) = value := by omega
    simp only [if_pos negative, List.append_assoc]
    change (decimalValue (List.replicate _ 48 ++ decimal value.natAbs)).map _ = _
    rw [decimalValue_leading, Option.map_some, magnitude]
  · have magnitude : (value.natAbs : Int) = value := by omega
    have unsigned : (List.replicate (width - (decimal value.natAbs).length) 48 ++ decimal value.natAbs).head? ≠
        some 45 := by
      intro first
      have digit := isDecimalDigit_of_mem_magnitude (List.mem_of_head? first)
      revert digit
      decide
    simp only [if_neg negative, List.nil_append, List.length_nil, Nat.zero_add]
    rw [integerValue, if_neg unsigned, decimalValue_leading, Option.map_some, magnitude]

private theorem integerValue_signed (value : Int) : integerValue (signed value) = some value :=
  (canonicalDecimal_signed value).reads

private theorem length_zeroPadded_le {bound : Nat} (positive : 0 < bound) (wide : width ≤ bound + 1)
    (small : value.natAbs < 10 ^ bound) : (zeroPadded width value).length ≤ bound + 1 := by
  have digits : (decimal value.natAbs).length ≤ bound := length_numeral_le (by decide) positive small
  rw [zeroPadded]
  split_ifs
  · simp only [List.length_append, List.length_replicate, show (ascii "-").length = 1 from rfl]
    omega
  · simp only [List.length_append, List.length_replicate, List.length_nil]
    omega

/-- A number that is not negative fills the width exactly, if it has no more digits than that. -/
theorem zeroPadded_of_nonneg (nonneg : 0 ≤ value) (positive : 0 < width) (small : value.natAbs < 10 ^ width) :
    (zeroPadded width value).length = width ∧ ∀ byte ∈ zeroPadded width value, isDecimalDigit byte = true := by
  have digits : (decimal value.natAbs).length ≤ width := length_numeral_le (by decide) positive small
  have unsigned : ¬ value < 0 := by omega
  rw [zeroPadded]
  simp only [if_neg unsigned, List.nil_append, List.length_nil, Nat.zero_add]
  refine ⟨?_, fun byte member => isDecimalDigit_of_mem_magnitude member⟩
  rw [List.length_append, List.length_replicate]
  omega

end Numerals

section Arrays

variable {SIZE : Nat} {buf next : RawBuffer SIZE} {text : Bytes}

/-- A text that was stored at the front with its NUL is the string of the array. -/
theorem RawBuffer.Wrote.toStdString (wrote : buf.Wrote next 0 (text ++ [0])) (terminated : 0 ∉ text) :
    next.toStdString = .ok text := by
  have data : next.data = text ++ 0 :: buf.data.drop (text.length + 1) := by
    rw [wrote.data, overwrite]
    simp
  have present : 0 ∈ next.data := by
    rw [data]
    exact List.mem_append_right _ List.mem_cons_self
  have before : ∀ byte ∈ text, decide (byte ≠ 0) = true := by
    intro byte member
    apply decide_eq_true
    rintro rfl
    exact terminated member
  rw [RawBuffer.toStdString, if_pos present, data, List.takeWhile_append_of_pos before]
  simp

theorem RawBuffer.snprintf_spec (buf : RawBuffer SIZE) (short : text.length < SIZE) :
    ∃ next, buf.snprintf 0 SIZE text = .ok (next, text.length) ∧ buf.Wrote next 0 (text ++ [0]) := by
  have whole : text.take (SIZE - 1) = text := List.take_of_length_le (by omega)
  have inside : 0 + (text ++ [0]).length ≤ SIZE := by
    rw [List.length_append, List.length_singleton]
    omega
  obtain ⟨next, stored, wrote⟩ := buf.memcpy_spec inside
  refine ⟨next, ?_, wrote⟩
  rw [RawBuffer.snprintf, whole, stored]
  rfl

end Arrays

section Order

variable {first second front back more rest : Bytes}

/-- Digit strings of one length are ordered as their values. -/
theorem foldl_digits_lt_iff (same : first.length = second.length) (digits : ∀ byte ∈ first, isDecimalDigit byte = true)
    (others : ∀ byte ∈ second, isDecimalDigit byte = true) (low high : Nat) :
    first.foldl (fun value digit => 10 * value + (digit.toNat - 48)) low <
        second.foldl (fun value digit => 10 * value + (digit.toNat - 48)) high ↔
      low < high ∨ low = high ∧ first < second := by
  induction first generalizing second low high with
  | nil =>
      cases second with
      | nil => simp
      | cons byte second => cases same
  | cons digit first ih =>
      cases second with
      | nil => cases same
      | cons other second =>
          have inside := digits digit List.mem_cons_self
          have isInside := others other List.mem_cons_self
          simp only [isDecimalDigit, Bool.and_eq_true, decide_eq_true_eq, UInt8.le_iff_toNat_le] at inside isInside
          change 48 ≤ digit.toNat ∧ digit.toNat ≤ 57 at inside
          change 48 ≤ other.toNat ∧ other.toNat ≤ 57 at isInside
          have less : 10 * low + (digit.toNat - 48) < 10 * high + (other.toNat - 48) ↔
              low < high ∨ low = high ∧ digit < other := by
            rw [UInt8.lt_iff_toNat_lt]
            omega
          have equal : 10 * low + (digit.toNat - 48) = 10 * high + (other.toNat - 48) ↔
              low = high ∧ digit = other := by
            rw [← UInt8.toNat_inj]
            omega
          rw [List.foldl_cons, List.foldl_cons, ih (Nat.succ_inj.mp same)
            (fun byte member => digits byte (List.mem_cons_of_mem _ member))
            (fun byte member => others byte (List.mem_cons_of_mem _ member)), less, equal, List.cons_lt_cons_iff]
          tauto

private theorem append_lt_append_iff (same : front.length = back.length) :
    front ++ more < back ++ rest ↔ front < back ∨ front = back ∧ more < rest := by
  induction front generalizing back with
  | nil =>
      cases back with
      | nil => simp
      | cons byte back => cases same
  | cons byte front ih =>
      cases back with
      | nil => cases same
      | cons other back =>
          rw [List.cons_append, List.cons_append, List.cons_lt_cons_iff, ih (Nat.succ_inj.mp same),
            List.cons_lt_cons_iff, List.cons_eq_cons]
          tauto

private theorem decimalValue_eq_some {value : Nat} (reads : decimalValue first = some value) :
    (∀ byte ∈ first, isDecimalDigit byte = true) ∧
      first.foldl (fun value digit => 10 * value + (digit.toNat - 48)) 0 = value := by
  unfold decimalValue at reads
  split_ifs at reads with digits
  exact ⟨List.all_eq_true.mp digits.2, Option.some.inj reads⟩

private theorem decimalValue_lt_iff {value other : Nat} (reads : decimalValue first = some value)
    (isRead : decimalValue second = some other) (same : first.length = second.length) :
    first < second ↔ value < other := by
  obtain ⟨digits, shown⟩ := decimalValue_eq_some reads
  obtain ⟨others, isShown⟩ := decimalValue_eq_some isRead
  rw [← shown, ← isShown, foldl_digits_lt_iff same digits others]
  simp

private theorem decimalValue_eq_iff {value other : Nat} (reads : decimalValue first = some value)
    (isRead : decimalValue second = some other) (same : first.length = second.length) :
    first = second ↔ value = other := by
  constructor
  · rintro rfl
    exact Option.some.inj (reads.symm.trans isRead)
  · rintro rfl
    have notBefore : ¬ first < second := mt (decimalValue_lt_iff reads isRead same).mp (Nat.lt_irrefl value)
    have notBehind : ¬ second < first := mt (decimalValue_lt_iff isRead reads same.symm).mp (Nat.lt_irrefl value)
    exact List.le_antisymm (List.not_lt.mp notBehind) (List.not_lt.mp notBefore)

end Order

namespace Timestamp

/-- What `toString` prints. -/
def text (timestamp : Timestamp) : Bytes :=
  signed (timestamp.tdiv kMicroSecondsPerSeconds) ++ ascii "." ++
    zeroPadded 6 (timestamp.tmod kMicroSecondsPerSeconds)

variable {timestamp : Timestamp}

private theorem micro_lt (timestamp : Timestamp) : (timestamp.tmod kMicroSecondsPerSeconds).natAbs < 10 ^ 6 := by
  rw [Int.natAbs_tmod]
  exact Nat.mod_lt _ (by decide)

private theorem length_text_lt (word : timestamp.natAbs ≤ 2 ^ 63) : timestamp.text.length < 32 := by
  have seconds : (signed (timestamp.tdiv kMicroSecondsPerSeconds)).length ≤ 15 := by
    apply length_signed_le (by decide)
    rw [Int.natAbs_tdiv]
    exact Nat.lt_of_le_of_lt (Nat.div_le_div_right word) (by decide)
  have fraction : (zeroPadded 6 (timestamp.tmod kMicroSecondsPerSeconds)).length ≤ 7 :=
    length_zeroPadded_le (by decide) (by decide) timestamp.micro_lt
  rw [text, List.length_append, List.length_append, show (ascii ".").length = 1 from rfl]
  omega

private theorem terminated_text (timestamp : Timestamp) : 0 ∉ timestamp.text := by
  simp only [text, List.mem_append, not_or]
  exact ⟨⟨not_mem_signed rfl (by decide), by decide⟩, not_mem_zeroPadded rfl (by decide)⟩

private theorem toString_eq (word : timestamp.natAbs ≤ 2 ^ 63) : timestamp.toString = .ok timestamp.text := by
  obtain ⟨next, stored, wrote⟩ := RawBuffer.snprintf_spec (.new (List.replicate 32 0) List.length_replicate)
    (length_text_lt word)
  unfold text at stored
  simp only [toString, stored, Outcome.ok_bind]
  exact wrote.toStdString timestamp.terminated_text

private theorem ofText_text (timestamp : Timestamp) : ofText timestamp.text = some timestamp := by
  have cut : splitFirst (ascii ".") timestamp.text = some (signed (timestamp.tdiv kMicroSecondsPerSeconds),
      zeroPadded 6 (timestamp.tmod kMicroSecondsPerSeconds)) := splitFirst_line (not_mem_signed rfl (by decide))
  have sum := Int.tdiv_mul_add_tmod timestamp kMicroSecondsPerSeconds
  rw [ofText, cut]
  simp only [Option.bind_eq_bind, Option.bind_some, integerValue_signed, integerValue_zeroPadded, sum]
  rfl

/-- The parts of the text of a time from the Epoch on. -/
theorem text_of_nonneg {value : Int} (nonneg : 0 ≤ value) : ∃ (seconds fraction : Bytes) (whole micro : Nat),
    text value = seconds ++ ascii "." ++ fraction ∧ fraction.length = 6 ∧
      decimalValue seconds = some whole ∧ decimalValue fraction = some micro ∧
      value = whole * 1000000 + micro ∧ micro < 1000000 := by
  have seconds := Int.tdiv_nonneg nonneg (show 0 ≤ kMicroSecondsPerSeconds by decide)
  have fraction := Int.tmod_nonneg kMicroSecondsPerSeconds nonneg
  have small := micro_lt value
  have sum : value.tdiv kMicroSecondsPerSeconds * 1000000 + value.tmod kMicroSecondsPerSeconds = value :=
    Int.tdiv_mul_add_tmod value kMicroSecondsPerSeconds
  refine ⟨_, _, (value.tdiv kMicroSecondsPerSeconds).natAbs, _, rfl,
    (zeroPadded_of_nonneg fraction (by decide) small).1, ?_, ?_, ?_, small⟩
  · rw [signed, if_neg (Int.not_lt.mpr seconds)]
    exact decimalValue_decimal _
  · rw [zeroPadded]
    simp only [if_neg (Int.not_lt.mpr fraction), List.nil_append]
    exact decimalValue_leading _ _
  · omega

/-- What `toString` returns for a time. -/
structure Shows (text : Bytes) (timestamp : Timestamp) : Prop where
  /-- The array had room for the whole text and its NUL. -/
  uncut : text.length < 32
  reads : ofText text = some timestamp
  form : 0 ≤ timestamp → ∃ seconds fraction, text = seconds ++ ascii "." ++ fraction ∧ fraction.length = 6 ∧
    ∀ byte ∈ seconds ++ fraction, isDecimalDigit byte = true

private theorem text_shows (word : timestamp.natAbs ≤ 2 ^ 63) : Shows timestamp.text timestamp where
  uncut := length_text_lt word
  reads := timestamp.ofText_text
  form nonneg := by
    obtain ⟨seconds, fraction, whole, micro, parts, six, readsSeconds, readsFraction, -⟩ := text_of_nonneg nonneg
    refine ⟨seconds, fraction, parts, six, fun byte member => ?_⟩
    rcases List.mem_append.mp member with inSeconds | inFraction
    · exact (decimalValue_eq_some readsSeconds).1 byte inSeconds
    · exact (decimalValue_eq_some readsFraction).1 byte inFraction

/-- Texts of one length are ordered as their times. -/
theorem text_lt_iff {value other : Int} (nonneg : 0 ≤ value) (isNonneg : 0 ≤ other)
    (same : (text value).length = (text other).length) : text value < text other ↔ value < other := by
  obtain ⟨seconds, fraction, whole, micro, parts, six, reads, readsFraction, sum, small⟩ := text_of_nonneg nonneg
  obtain ⟨otherSeconds, otherFraction, otherWhole, otherMicro, otherParts, otherSix, otherReads,
    otherReadsFraction, otherSum, otherSmall⟩ := text_of_nonneg isNonneg
  have lengths : seconds.length = otherSeconds.length := by
    rw [parts, otherParts] at same
    simp only [List.length_append, six, otherSix] at same
    omega
  rw [parts, otherParts, List.append_assoc, List.append_assoc, append_lt_append_iff lengths,
    append_lt_append_iff rfl, decimalValue_eq_iff reads otherReads lengths,
    decimalValue_lt_iff reads otherReads lengths,
    decimalValue_lt_iff readsFraction otherReadsFraction (six.trans otherSix.symm)]
  simp only [List.lt_irrefl, false_or, true_and]
  omega

private theorem natAbs_le (microSecondsSinceEpoch : Int64) : microSecondsSinceEpoch.toInt.natAbs ≤ 2 ^ 63 := by
  have low := microSecondsSinceEpoch.le_toInt
  have high := microSecondsSinceEpoch.toInt_lt
  omega

/-- `Timestamp::toString` of every two times: each text fits its array and is
read back, and from the Epoch on texts of one length sort as their times. -/
theorem toString_sorts (microSecondsSinceEpoch other : Int64) : ∃ text otherText,
    toString microSecondsSinceEpoch.toInt = .ok text ∧ toString other.toInt = .ok otherText ∧
      Shows text microSecondsSinceEpoch.toInt ∧ Shows otherText other.toInt ∧
      (0 ≤ microSecondsSinceEpoch.toInt → 0 ≤ other.toInt → text.length = otherText.length →
        (text < otherText ↔ microSecondsSinceEpoch.toInt < other.toInt)) :=
  ⟨_, _, toString_eq (natAbs_le _), toString_eq (natAbs_le _), text_shows (natAbs_le _), text_shows (natAbs_le _),
    text_lt_iff⟩

end Timestamp

namespace SockaddrIn

variable {addr : SockaddrIn} {byte : UInt8}

/-- What `toHostPort` prints. -/
def hostPort (addr : SockaddrIn) : Bytes := dottedQuad addr.sin_addr ++ ascii ":" ++ decimal (ntohs addr.sin_port)

private theorem length_byte_le (byte : UInt8) : (decimal byte.toNat).length ≤ 3 :=
  length_numeral_le (by decide) (by decide) (Nat.lt_trans byte.toNat_lt (by decide))

private theorem ntohs_lt (netshort : UInt8 × UInt8) : ntohs netshort < 10 ^ 5 := by
  have high := netshort.1.toNat_lt
  have low := netshort.2.toNat_lt
  rw [ntohs]
  omega

private theorem length_dottedQuad_lt (addr : SockaddrIn) : (dottedQuad addr.sin_addr).length < INET_ADDRSTRLEN := by
  have first := length_byte_le addr.sin_addr.1
  have second := length_byte_le addr.sin_addr.2.1
  have third := length_byte_le addr.sin_addr.2.2.1
  have fourth := length_byte_le addr.sin_addr.2.2.2
  simp only [dottedQuad, List.length_append, show (ascii ".").length = 1 from rfl, INET_ADDRSTRLEN]
  omega

private theorem length_hostPort_lt (addr : SockaddrIn) : addr.hostPort.length < 32 := by
  have host := addr.length_dottedQuad_lt
  have port : (decimal (ntohs addr.sin_port)).length ≤ 5 :=
    length_numeral_le (by decide) (by decide) (ntohs_lt addr.sin_port)
  rw [INET_ADDRSTRLEN] at host
  rw [hostPort, List.length_append, List.length_append, show (ascii ":").length = 1 from rfl]
  omega

/-- No other byte than digits and points stands in a dotted quad. -/
theorem not_mem_dottedQuad {mark : UInt8} (outside : isDecimalDigit mark = false) (noPoint : mark ≠ 46)
    (address : UInt8 × UInt8 × UInt8 × UInt8) : mark ∉ dottedQuad address := by
  have point : mark ∉ ascii "." := fun member => noPoint (List.mem_singleton.mp member)
  simp only [dottedQuad, List.mem_append, not_or]
  exact ⟨⟨not_mem_decimal outside _, point⟩, ⟨not_mem_decimal outside _, point⟩,
    ⟨not_mem_decimal outside _, point⟩, not_mem_decimal outside _⟩

theorem not_mem_hostPort {mark : UInt8} (outside : isDecimalDigit mark = false) (noPoint : mark ≠ 46)
    (noColon : mark ≠ 58) (addr : SockaddrIn) : mark ∉ addr.hostPort := by
  have colon : mark ∉ ascii ":" := fun member => noColon (List.mem_singleton.mp member)
  simp only [hostPort, List.mem_append, not_or]
  exact ⟨⟨not_mem_dottedQuad outside noPoint _, colon⟩, not_mem_decimal outside _⟩

private theorem inet_ntop_spec (host : RawBuffer INET_ADDRSTRLEN) (addr : SockaddrIn) :
    ∃ next, inet_ntop host addr.sin_addr = .ok next ∧ next.toStdString = .ok (dottedQuad addr.sin_addr) := by
  have room := addr.length_dottedQuad_lt
  obtain ⟨next, stored, wrote⟩ := host.memcpy_spec
    (show 0 + (dottedQuad addr.sin_addr ++ [0]).length ≤ INET_ADDRSTRLEN by
      rw [List.length_append, List.length_singleton]
      omega)
  refine ⟨next, ?_, wrote.toStdString (not_mem_dottedQuad rfl (by decide) _)⟩
  rw [inet_ntop, if_pos room, stored]

/-- The array has room for the whole text. -/
theorem getAddrString_eq (uninitialised : Bytes) (size : uninitialised.length = 32) (addr : SockaddrIn) :
    addr.getAddrString uninitialised size = .ok addr.hostPort := by
  obtain ⟨host, stored, shown⟩ := inet_ntop_spec (.new (ascii "INVALID" ++ List.replicate 9 0) rfl) addr
  obtain ⟨next, printed, wrote⟩ := RawBuffer.snprintf_spec (.new uninitialised size) addr.length_hostPort_lt
  unfold hostPort at printed
  simp only [getAddrString, toHostPort, stored, shown, Outcome.ok_bind, printed]
  exact wrote.toStdString (addr.not_mem_hostPort rfl (by decide) (by decide))

theorem ofHostPort_hostPort (addr : SockaddrIn) : ofHostPort addr.hostPort =
    some ((addr.sin_addr.1.toNat, addr.sin_addr.2.1.toNat, addr.sin_addr.2.2.1.toNat, addr.sin_addr.2.2.2.toNat),
      ntohs addr.sin_port) := by
  have point (value : Nat) (rest : Bytes) : splitFirst (ascii ".") (decimal value ++ ascii "." ++ rest) =
      some (decimal value, rest) := splitFirst_line (not_mem_decimal rfl value)
  have colon : splitFirst (ascii ":") addr.hostPort = some (dottedQuad addr.sin_addr, decimal (ntohs addr.sin_port)) :=
    splitFirst_line (not_mem_dottedQuad rfl (by decide) _)
  rw [ofHostPort, colon]
  simp only [Option.bind_eq_bind, Option.bind_some, dottedQuad, point, decimalValue_decimal]
  rfl

end SockaddrIn

end NutServer.Base
