import NutServer.Net.BufferProperties

/-!
# The buffer as a byte queue

The operations a caller may perform, what they mean for a plain queue of bytes,
and the refinement between the two for runs of any length.
-/

set_option autoImplicit false

namespace NutServer.Net

open Library

namespace Buffer

inductive Op where
  | append (data : Bytes)
  | prepend (data : Bytes)
  | retrieve (len : Nat)
  /-- `retrieveUntil(peek() + len)`. -/
  | retrieveUntil (len : Nat)
  | retrieveAll
  | retrieveAsString
  | ensureWritableBytes (len : Nat)
  | readFd (result : ReadResult)
  deriving DecidableEq, Repr

/-- A buffer together with the strings that `retrieveAsString` has returned. -/
structure Session where
  buffer : Buffer
  strings : List Bytes
  deriving DecidableEq, Repr

/-- What a caller has to respect, and what `readv` cannot exceed. -/
def Op.Allowed (session : Session) : Op → Prop
  | .prepend data => data.length ≤ session.buffer.prependableBytes
  | .retrieve len => len ≤ session.buffer.readableBytes
  | .retrieveUntil len => len ≤ session.buffer.readableBytes
  | .readFd (.received bytes) => bytes.length ≤ session.buffer.writableBytes + extrabufSize
  | _ => True

instance decidableAllowed (session : Session) : ∀ op : Op, Decidable (op.Allowed session)
  | .prepend data => inferInstanceAs (Decidable (data.length ≤ session.buffer.prependableBytes))
  | .retrieve len => inferInstanceAs (Decidable (len ≤ session.buffer.readableBytes))
  | .retrieveUntil len => inferInstanceAs (Decidable (len ≤ session.buffer.readableBytes))
  | .readFd (.received bytes) =>
      inferInstanceAs (Decidable (bytes.length ≤ session.buffer.writableBytes + extrabufSize))
  | .readFd .failed | .append _ | .retrieveAll | .retrieveAsString | .ensureWritableBytes _ =>
      isTrue trivial

def Session.perform (session : Session) : Op → Outcome Session
  | .append data => return { session with buffer := ← session.buffer.append data }
  | .prepend data => return { session with buffer := ← session.buffer.prepend data }
  | .retrieve len => return { session with buffer := ← session.buffer.retrieve len }
  | .retrieveUntil len =>
      return { session with buffer := ← session.buffer.retrieveUntil (session.buffer.peek + len) }
  | .retrieveAll => return { session with buffer := session.buffer.retrieveAll }
  | .retrieveAsString => do
      let (str, buffer) ← session.buffer.retrieveAsString
      return { buffer, strings := session.strings ++ [str] }
  | .ensureWritableBytes len =>
      return { session with buffer := ← session.buffer.ensureWritableBytes len }
  | .readFd result => do
      let (buffer, _) ← session.buffer.readFd result
      return { session with buffer }

/-- A step is possible when no assertion fails and no copy leaves the vector. -/
def Session.step (session : Session) (op : Op) : Option Session := (session.perform op).toOption

structure ByteQueue where
  bytes : Bytes
  strings : List Bytes
  deriving DecidableEq, Repr

/-- The meaning of the operations: the queue alone, without positions. -/
def ByteQueue.perform (queue : ByteQueue) : Op → ByteQueue
  | .append data => { queue with bytes := queue.bytes ++ data }
  | .prepend data => { queue with bytes := data ++ queue.bytes }
  | .retrieve len => { queue with bytes := queue.bytes.drop len }
  | .retrieveUntil len => { queue with bytes := queue.bytes.drop len }
  | .retrieveAll => { queue with bytes := [] }
  | .retrieveAsString => { bytes := [], strings := queue.strings ++ [queue.bytes] }
  | .ensureWritableBytes _ => queue
  | .readFd .failed => queue
  | .readFd (.received bytes) => { queue with bytes := queue.bytes ++ bytes }

def Session.queue (session : Session) : ByteQueue where
  bytes := session.buffer.readable
  strings := session.strings

theorem Session.step_of_perform {session next : Session} {op : Op}
    (performed : session.perform op = .ok next) : session.step op = some next :=
  Outcome.toOption_eq_some_iff.mpr performed

theorem Session.step_refines (session : Session) (op : Op) (valid : session.buffer.Valid)
    (allowed : op.Allowed session) :
    ∃ next, session.step op = some next ∧ next.buffer.Valid ∧ next.queue = session.queue.perform op := by
  cases op with
  | append data =>
      obtain ⟨buffer, appended, bufferValid, shown⟩ := append_spec valid data
      exact ⟨{ session with buffer }, step_of_perform (by simp [perform, appended, pure, Except.pure]),
        bufferValid, by simp [queue, ByteQueue.perform, shown]⟩
  | prepend data =>
      obtain ⟨buffer, prepended, bufferValid, shown⟩ := prepend_spec valid allowed
      exact ⟨{ session with buffer }, step_of_perform (by simp [perform, prepended, pure, Except.pure]),
        bufferValid, by simp [queue, ByteQueue.perform, shown]⟩
  | retrieve len =>
      obtain ⟨buffer, retrieved, bufferValid, shown⟩ := retrieve_spec valid allowed
      exact ⟨{ session with buffer }, step_of_perform (by simp [perform, retrieved, pure, Except.pure]),
        bufferValid, by simp [queue, ByteQueue.perform, shown]⟩
  | retrieveUntil len =>
      obtain ⟨buffer, retrieved, bufferValid, shown⟩ := retrieveUntil_spec valid allowed
      exact ⟨{ session with buffer }, step_of_perform (by simp [perform, retrieved, pure, Except.pure]),
        bufferValid, by simp [queue, ByteQueue.perform, shown]⟩
  | retrieveAll =>
      obtain ⟨bufferValid, shown⟩ := retrieveAll_spec valid
      exact ⟨{ session with buffer := session.buffer.retrieveAll }, step_of_perform rfl, bufferValid,
        by simp [queue, ByteQueue.perform, shown]⟩
  | retrieveAsString =>
      obtain ⟨bufferValid, shown⟩ := retrieveAll_spec valid
      refine ⟨{ buffer := session.buffer.retrieveAll, strings := session.strings ++ [session.buffer.readable] },
        step_of_perform ?_, bufferValid, by simp [queue, ByteQueue.perform, shown]⟩
      simp [perform, retrieveAsString_spec valid, pure, Except.pure]
  | ensureWritableBytes len =>
      obtain ⟨buffer, ensured, bufferValid, shown, _⟩ := ensureWritableBytes_spec valid len
      exact ⟨{ session with buffer }, step_of_perform (by simp [perform, ensured, pure, Except.pure]),
        bufferValid, by simp [queue, ByteQueue.perform, shown]⟩
  | readFd result =>
      cases result with
      | failed => exact ⟨session, step_of_perform rfl, valid, rfl⟩
      | received bytes =>
          obtain ⟨buffer, read, bufferValid, shown⟩ := readFd_spec valid allowed
          exact ⟨{ session with buffer }, step_of_perform (by simp [perform, read, pure, Except.pure]),
            bufferValid, by simp [queue, ByteQueue.perform, shown]⟩

def Session.fresh : Session where
  buffer := Buffer.fresh
  strings := []

/-- The constructor's assertions hold, and every run of allowed operations from
there returns from each of them, keeps the indices in order, and ends with
exactly the bytes and the strings of the plain queue. -/
theorem session_refines_byteQueue (ops : List Op)
    (allowed : Along Session.step (fun session op => op.Allowed session) Session.fresh ops) :
    Buffer.new = .ok Session.fresh.buffer ∧
    ∃ final, run Session.step Session.fresh ops = some final ∧
      final.buffer.readerIndex ≤ final.buffer.writerIndex ∧
      final.buffer.writerIndex ≤ final.buffer.buffer.length ∧
      final.queue = ops.foldl ByteQueue.perform ⟨[], []⟩ := by
  obtain ⟨final, ran, valid, shown⟩ := run_refines
    (fun session => session.buffer.Valid) Session.queue ByteQueue.perform fresh_valid
    Session.step_refines allowed
  have start : Session.fresh.queue = ⟨[], []⟩ := by simp [Session.queue, Session.fresh]
  exact ⟨new_eq_fresh, final, ran, valid.ordered, valid.bounded, start ▸ shown⟩

theorem session_refines_byteQueue_mixed :
    let ops : List Op := [.append (ascii "ab"), .prepend (ascii "0"), .retrieve 2,
      .ensureWritableBytes 1023, .ensureWritableBytes 4096, .readFd (.received (ascii "cd")),
      .retrieveUntil 1, .retrieveAsString, .readFd .failed]
    ∃ final, run Session.step Session.fresh ops = some final ∧
      final.queue = ⟨[], [ascii "cd"]⟩ := by
  obtain ⟨_, final, ran, _, _, shown⟩ := session_refines_byteQueue
    [.append (ascii "ab"), .prepend (ascii "0"), .retrieve 2,
      .ensureWritableBytes 1023, .ensureWritableBytes 4096, .readFd (.received (ascii "cd")),
      .retrieveUntil 1, .retrieveAsString, .readFd .failed] (by decide +kernel)
  exact ⟨final, ran, shown.trans (by decide)⟩

end Buffer

end NutServer.Net
