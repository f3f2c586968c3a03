import NutServer.Base.FixedBuffer
import NutServer.Base.Numeral
import NutServer.Library.Cells

/-!
# The log stream

`nut::LogStream` formats its items straight into the array of its buffer, so
the array keeps the bytes behind the cursor here.
-/

set_option autoImplicit false

namespace NutServer.Base

open Library

/-- `FixedBuffer<SIZE>` as it lies in memory: `data_` and the index of `cur_`. -/
structure RawBuffer (SIZE : Nat) where
  data : Bytes
  cur : Nat
  size : data.length = SIZE
  fits : cur ≤ SIZE
  deriving DecidableEq, Repr

namespace RawBuffer

variable {SIZE : Nat}

/-- The array of a new buffer is not initialised. -/
def new (uninitialised : Bytes) (size : uninitialised.length = SIZE) : RawBuffer SIZE :=
  ⟨uninitialised, 0, size, Nat.zero_le SIZE⟩

def length (buffer : RawBuffer SIZE) : Nat := buffer.cur

def avail (buffer : RawBuffer SIZE) : Int := SIZE - buffer.cur

/-- What a reader of `data()` and `length()` is given. -/
def contents (buffer : RawBuffer SIZE) : Bytes := buffer.data.take buffer.cur

/-- A write that ends behind the array is a `range` fault. -/
def memcpy (buffer : RawBuffer SIZE) (position : Nat) (bytes : Bytes) : Outcome (RawBuffer SIZE) :=
  if inside : position + bytes.length ≤ SIZE then .ok {
    data := overwrite buffer.data position bytes
    cur := buffer.cur
    size := by rw [length_overwrite (by rw [buffer.size]; exact inside), buffer.size]
    fits := buffer.fits }
  else .error .range

def store (buffer : RawBuffer SIZE) (position : Nat) (byte : UInt8) : Outcome (RawBuffer SIZE) :=
  buffer.memcpy position [byte]

/-- `cur_` may become the end of the array, and nothing behind it. -/
def add (buffer : RawBuffer SIZE) (len : Nat) : Outcome (RawBuffer SIZE) :=
  if inside : buffer.cur + len ≤ SIZE then .ok { buffer with cur := buffer.cur + len, fits := inside }
  else .error .range

def append (buffer : RawBuffer SIZE) (buf : Bytes) : Outcome (RawBuffer SIZE) := do
  if castInt buf.length < buffer.avail then
    let copied ← buffer.memcpy buffer.cur buf
    copied.add buf.length
  else return buffer

/-- `std::reverse` on the pointers `first` and `last`. -/
def reverse (buffer : RawBuffer SIZE) (first last : Nat) : Outcome (RawBuffer SIZE) :=
  if first ≤ last ∧ last ≤ SIZE then buffer.memcpy first (slice buffer.data first last).reverse
  else .error .range

/-- `snprintf` into `size` bytes from `buf` on, where the whole text is
`printed`. The text is cut to leave room for its NUL; the result is not. -/
def snprintf (buffer : RawBuffer SIZE) (buf size : Nat) (printed : Bytes) : Outcome (RawBuffer SIZE × Nat) := do
  let written ← buffer.memcpy buf (printed.take (size - 1) ++ [0])
  return (written, printed.length)

end RawBuffer

def digits : Bytes := ascii "9876543210123456789"

def digitsHex : Bytes := ascii "0123456789ABCDEF"

/-- The index of `zero` in `digits`. -/
def zero : Int := 9

def entry (table : Bytes) (index : Int) : Outcome UInt8 :=
  if index < 0 then .error .range
  else match table[index.toNat]? with
    | some byte => .ok byte
    | none => .error .range

section Convert

variable {SIZE : Nat}

structure DigitLocals (SIZE : Nat) where
  buffer : RawBuffer SIZE
  i : Int
  p : Nat

/-- One turn of the loop over the digits, the last digit first. `%` and `/`
round towards zero, so the digits of a negative number are negative. -/
def digitBody (base : Int) (table : Bytes) (origin : Int) (locals : DigitLocals SIZE) :
    Outcome (Turn (DigitLocals SIZE) (RawBuffer SIZE × Nat)) := do
  let lsd := locals.i.tmod base
  let i := locals.i.tdiv base
  let digit ← entry table (origin + lsd)
  let buffer ← locals.buffer.store locals.p digit
  let p := locals.p + 1
  if i ≠ 0 then return .again ⟨buffer, i, p⟩ else return .leave (buffer, p)

/-- `do … while (i != 0)`: as long as it goes on, `i` comes nearer to zero. -/
def digitLoop (base : Int) (table : Bytes) (origin : Int) (buffer : RawBuffer SIZE) (buf : Nat) (value : Int) :
    Outcome (RawBuffer SIZE × Nat) :=
  watch (digitBody base table origin) (value.natAbs + 1) ⟨buffer, value, buf⟩

/-- `convert<T>`. No value of an integer type leaves the type when it is divided by ten. -/
def convert (buffer : RawBuffer SIZE) (buf : Nat) (value : Int) : Outcome (RawBuffer SIZE × Nat) := do
  let (buffer, p) ← digitLoop 10 digits zero buffer buf value
  let (buffer, p) ←
    if value < 0 then do
      let buffer ← buffer.store p 45
      pure (buffer, p + 1)
    else pure (buffer, p)
  let buffer ← buffer.store p 0
  let buffer ← buffer.reverse buf p
  return (buffer, p - buf)

def convertHex (buffer : RawBuffer SIZE) (buf : Nat) (value : UInt64) : Outcome (RawBuffer SIZE × Nat) := do
  let (buffer, p) ← digitLoop 16 digitsHex 0 buffer buf value.toNat
  let buffer ← buffer.store p 0
  let buffer ← buffer.reverse buf p
  return (buffer, p - buf)

end Convert

/-- The bytes in front of the NUL. -/
structure CString where
  chars : Bytes
  terminated : 0 ∉ chars
  deriving DecidableEq, Repr

/-- What can be inserted, by the overload it selects. A floating value is given
by the text that `snprintf` makes of it. -/
inductive Item where
  | bool (v : Bool)
  | short (v : Int16)
  | unsignedShort (v : UInt16)
  | int (v : Int32)
  | unsignedInt (v : UInt32)
  | long (v : Int64)
  | unsignedLong (v : UInt64)
  | longLong (v : Int64)
  | unsignedLongLong (v : UInt64)
  | pointer (p : UInt64)
  | float (printed : Bytes)
  | double (printed : Bytes)
  | longDouble (printed : Bytes)
  | char (v : UInt8)
  /-- `none` is the null pointer. -/
  | cString (str : Option CString)
  | unsignedCString (str : Option CString)
  | string (v : Bytes)
  deriving DecidableEq, Repr

structure LogStream where
  buffer : RawBuffer SmallBuffer
  deriving DecidableEq, Repr

namespace LogStream

def kMaxNumericSize : Nat := 32

def new (uninitialised : Bytes) (size : uninitialised.length = SmallBuffer) : LogStream :=
  ⟨.new uninitialised size⟩

def append (stream : LogStream) (bytes : Bytes) : Outcome LogStream := do
  let buffer ← stream.buffer.append bytes
  return ⟨buffer⟩

/-- The numbers are written where there is room for the longest of them. -/
def format (stream : LogStream)
    (write : RawBuffer SmallBuffer → Nat → Outcome (RawBuffer SmallBuffer × Nat)) : Outcome LogStream := do
  if (kMaxNumericSize : Int) ≤ stream.buffer.avail then
    let (buffer, len) ← write stream.buffer stream.buffer.cur
    let buffer ← buffer.add len
    return ⟨buffer⟩
  else return stream

def formatInteger (stream : LogStream) (v : Int) : Outcome LogStream :=
  stream.format fun buffer current => convert buffer current v

def formatFloating (stream : LogStream) (printed : Bytes) : Outcome LogStream :=
  stream.format fun buffer current => buffer.snprintf current kMaxNumericSize printed

def formatPointer (stream : LogStream) (p : UInt64) : Outcome LogStream :=
  stream.format fun buffer buf => do
    let buffer ← buffer.store buf 48
    let buffer ← buffer.store (buf + 1) 120
    let (buffer, len) ← convertHex buffer (buf + 2) p
    return (buffer, len + 2)

def appendCString (stream : LogStream) : Option CString → Outcome LogStream
  | some str => stream.append str.chars
  | none => stream.append (ascii "(null)")

/-- `operator<<`. -/
def insert (stream : LogStream) : Item → Outcome LogStream
  | .bool v => stream.append (if v then ascii "1" else ascii "0")
  | .short v => stream.formatInteger v.toInt32.toInt
  | .unsignedShort v => stream.formatInteger v.toUInt32.toNat
  | .int v => stream.formatInteger v.toInt
  | .unsignedInt v => stream.formatInteger v.toNat
  | .long v | .longLong v => stream.formatInteger v.toInt
  | .unsignedLong v | .unsignedLongLong v => stream.formatInteger v.toNat
  | .pointer p => stream.formatPointer p
  | .float printed | .double printed | .longDouble printed => stream.formatFloating printed
  | .char v => stream.append [v]
  | .cString str | .unsignedCString str => stream.appendCString str
  | .string v => stream.append v

/-- `stream << item << … << item`. -/
def insertAll (stream : LogStream) (items : List Item) : Outcome LogStream := items.foldlM insert stream

end LogStream

end NutServer.Base
