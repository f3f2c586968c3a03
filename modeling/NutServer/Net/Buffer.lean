import NutServer.Base.Outcome
import NutServer.Library.Cells
import NutServer.Library.Search

/-!
# The network buffer

`nut::Buffer`: a vector with a reader and a writer index. A pointer into the
vector is a position; a copy that leaves the vector is a `range` fault.
-/

set_option autoImplicit false

namespace NutServer.Net

open Library

structure Buffer where
  buffer : Bytes
  readerIndex : Nat
  writerIndex : Nat
  deriving DecidableEq, Repr

inductive ReadResult where
  | failed
  | received (bytes : Bytes)
  deriving DecidableEq, Repr

def ReadResult.size : ReadResult → Nat
  | .failed => 0
  | .received bytes => bytes.length

namespace Buffer

def kCheapPrepend : Nat := 8

def kInitialSize : Nat := 1024

def kCRLF : Bytes := [13, 10]

/-- Size of the stack buffer that `readFd` reads into after the tail of the vector. -/
def extrabufSize : Nat := 65536

def readableBytes (buf : Buffer) : Nat := sizeSub buf.writerIndex buf.readerIndex

def writableBytes (buf : Buffer) : Nat := sizeSub buf.buffer.length buf.writerIndex

def prependableBytes (buf : Buffer) : Nat := buf.readerIndex

def peek (buf : Buffer) : Nat := buf.readerIndex

def beginWrite (buf : Buffer) : Nat := buf.writerIndex

/-- The constructor, before its assertions are evaluated. -/
def fresh : Buffer where
  buffer := List.replicate (kCheapPrepend + kInitialSize) 0
  readerIndex := kCheapPrepend
  writerIndex := kCheapPrepend

def new : Outcome Buffer := do
  assert (fresh.readableBytes = 0)
  assert (fresh.writableBytes = kInitialSize)
  assert (fresh.prependableBytes = kCheapPrepend)
  return fresh

def resize (cells : Bytes) (size : Nat) : Bytes :=
  cells.take size ++ List.replicate (size - cells.length) 0

def store (cells : Bytes) (position : Nat) (data : Bytes) : Outcome Bytes :=
  if position + data.length ≤ cells.length then .ok (overwrite cells position data)
  else .error .range

/-- The bytes that a string built from two pointers into the vector holds. -/
def bytesBetween (cells : Bytes) (first last : Nat) : Outcome Bytes :=
  if first ≤ last ∧ last ≤ cells.length then .ok (slice cells first last)
  else .error .range

/-- Position of the first CRLF in the readable bytes, or a null pointer. -/
def findCRLF (buf : Buffer) : Option Nat :=
  (searchFor kCRLF (slice buf.buffer buf.peek buf.beginWrite)).map (buf.peek + ·)

def retrieve (buf : Buffer) (len : Nat) : Outcome Buffer := do
  assert (len ≤ buf.readableBytes)
  return { buf with readerIndex := buf.readerIndex + len }

def retrieveUntil (buf : Buffer) (finish : Nat) : Outcome Buffer := do
  assert (buf.peek ≤ finish)
  assert (finish ≤ buf.beginWrite)
  buf.retrieve (finish - buf.peek)

def retrieveAll (buf : Buffer) : Buffer :=
  { buf with readerIndex := kCheapPrepend, writerIndex := kCheapPrepend }

def retrieveAsString (buf : Buffer) : Outcome (Bytes × Buffer) := do
  let str ← bytesBetween buf.buffer buf.peek (buf.peek + buf.readableBytes)
  return (str, buf.retrieveAll)

def makeSpace (buf : Buffer) (len : Nat) : Outcome Buffer :=
  if buf.writableBytes + buf.prependableBytes < len + kCheapPrepend then
    .ok { buf with buffer := resize buf.buffer (buf.writerIndex + len) }
  else do
    assert (kCheapPrepend < buf.readerIndex)
    let readable := buf.readableBytes
    let moved := { buf with
      buffer := copyForward (buf.writerIndex - buf.readerIndex) buf.buffer buf.readerIndex kCheapPrepend
      readerIndex := kCheapPrepend
      writerIndex := kCheapPrepend + readable }
    assert (readable = moved.readableBytes)
    return moved

def ensureWritableBytes (buf : Buffer) (len : Nat) : Outcome Buffer := do
  let roomy ← if buf.writableBytes < len then buf.makeSpace len else .ok buf
  assert (len ≤ roomy.writableBytes)
  return roomy

def hasWritten (buf : Buffer) (len : Nat) : Buffer :=
  { buf with writerIndex := buf.writerIndex + len }

def append (buf : Buffer) (data : Bytes) : Outcome Buffer := do
  let roomy ← buf.ensureWritableBytes data.length
  let cells ← store roomy.buffer roomy.beginWrite data
  return { roomy with buffer := cells }.hasWritten data.length

def prepend (buf : Buffer) (data : Bytes) : Outcome Buffer := do
  assert (data.length ≤ buf.prependableBytes)
  let readerIndex := buf.readerIndex - data.length
  let cells ← store buf.buffer readerIndex data
  return { buf with buffer := cells, readerIndex }

/-- The size of the new vector is a sum of `size_t`. -/
def shrink (buf : Buffer) (reserve : Nat) : Outcome Buffer := do
  let data ← bytesBetween buf.buffer buf.peek (buf.peek + buf.readableBytes)
  let size := sizeAdd (sizeAdd kCheapPrepend buf.readableBytes) reserve
  let cells ← store (List.replicate size 0) kCheapPrepend data
  return { buf with buffer := cells }

/-- `readv` fills the tail of the vector first and the stack buffer after it.
The second component is the number of bytes, or -1. -/
def readFd (buf : Buffer) : ReadResult → Outcome (Buffer × Int)
  | .failed => .ok (buf, -1)
  | .received bytes => do
      let writable := buf.writableBytes
      let cells ← store buf.buffer buf.writerIndex (bytes.take writable)
      if bytes.length ≤ writable then
        return ({ buf with buffer := cells, writerIndex := buf.writerIndex + bytes.length }, bytes.length)
      else if bytes.length - writable ≤ extrabufSize then
        let filled := { buf with buffer := cells, writerIndex := buf.buffer.length }
        let extended ← filled.append (bytes.drop writable)
        return (extended, bytes.length)
      else .error .range

end Buffer

end NutServer.Net
