import NutServer.Base.LogStreamProperties
import NutServer.Base.AsyncLoggingProperties

/-!
# The logger

A `nut::Logger` lives as long as its line of the log: the constructor writes the
time, the statement behind `LOG` its items, and the destructor the place, before
it hands the record to the logging thread.
-/

set_option autoImplicit false

namespace NutServer.Base

open Library

structure Logger where
  stream : LogStream
  line : Int32
  basename : Bytes
  deriving DecidableEq, Repr

namespace Logger

/-- `str_t` is what `formatTime` makes of the time of day. -/
def new (uninitialised : Bytes) (size : uninitialised.length = SmallBuffer) (fileName : CString) (line : Int32)
    (str_t : CString) : Outcome Logger := do
  let stream ← (LogStream.new uninitialised size).insert (.cString (some str_t))
  return ⟨stream, line, fileName.chars⟩

/-- ` -- `, without its NUL. -/
def separator : CString := ⟨ascii " -- ", by decide⟩

/-- `~Logger()`; the buffer is what `output` is given. -/
def destroy (logger : Logger) : Outcome (RawBuffer SmallBuffer) := do
  let stream ← logger.stream.insert (.cString (some separator))
  let stream ← stream.insert (.string logger.basename)
  let stream ← stream.insert (.char 58)
  let stream ← stream.insert (.int logger.line)
  let stream ← stream.insert (.char 32)
  return stream.buffer

/-- `LOG << item << … << item;` -/
def record (uninitialised : Bytes) (size : uninitialised.length = SmallBuffer) (fileName : CString) (line : Int32)
    (str_t : CString) (items : List Item) : Outcome (RawBuffer SmallBuffer) := do
  let logger ← new uninitialised size fileName line str_t
  let stream ← logger.stream.insertAll items
  destroy { logger with stream }

end Logger

/-- `output(buf.data(), buf.length())`. -/
def output (log : AsyncLogging) (buf : RawBuffer SmallBuffer) : Outcome AsyncLogging :=
  log.append (buf.data.take buf.length)

namespace Logger

def inserted (fileName : CString) (line : Int32) (str_t : CString) (items : List Item) : List Item :=
  .cString (some str_t) :: items ++
    [.cString (some separator), .string fileName.chars, .char 58, .int line, .char 32]

private theorem record_eq (uninitialised : Bytes) (size : uninitialised.length = SmallBuffer) (fileName : CString)
    (line : Int32) (str_t : CString) (items : List Item) :
    record uninitialised size fileName line str_t items =
      ((LogStream.new uninitialised size).insertAll (inserted fileName line str_t items)).map LogStream.buffer := by
  unfold record new destroy inserted LogStream.insertAll
  simp only [List.cons_append, List.foldlM_cons, List.foldlM_append, List.foldlM_nil, Outcome.map_bind, bind_assoc,
    pure_bind]
  rfl

private theorem record_spec {uninitialised : Bytes} (size : uninitialised.length = SmallBuffer) {fileName : CString}
    {line : Int32} {str_t : CString} {items : List Item}
    (admitted : ∀ item ∈ inserted fileName line str_t items, item.Admitted) :
    ∃ buf, record uninitialised size fileName line str_t items = .ok buf ∧
      (LogStream.new uninitialised size).insertAll (inserted fileName line str_t items) = .ok ⟨buf⟩ ∧
      buf.cur < SmallBuffer := by
  obtain ⟨final, ran, room⟩ := LogStream.insertAll_spec (LogStream.new_room size) admitted
  refine ⟨final.buffer, ?_, ran, room⟩
  rw [record_eq, ran]
  rfl

private theorem output_spec {events : List AsyncLogging.Event} {log : AsyncLogging}
    (reached : run AsyncLogging.step .new events = some log) {buf : RawBuffer SmallBuffer}
    (room : buf.cur < SmallBuffer) :
    ∃ next, output log buf = .ok next ∧ next.stream = log.stream ++ buf.contents := by
  have short : buf.contents.length < SmallBuffer := by
    rw [RawBuffer.length_contents]
    exact room
  obtain ⟨next, appended, _, shown⟩ := AsyncLogging.append_spec (AsyncLogging.sound_of_run reached) short
  exact ⟨next, appended, shown⟩

/-- Whatever is inserted is inserted whole or not at all, and what the logger
then hands on has room in an empty buffer of the logging thread. -/
theorem output_keeps_record (uninitialised : Bytes) (size : uninitialised.length = SmallBuffer) :
    (∀ (past : List Item) (item : Item), (∀ entry ∈ past, entry.Admitted) → item.Admitted →
      ∃ before after, (LogStream.new uninitialised size).insertAll past = .ok before ∧
        before.insert item = .ok after ∧
        (after.buffer.contents = before.buffer.contents ∨
          after.buffer.contents = before.buffer.contents ++ item.text) ∧
        after.buffer.length ≤ 3999) ∧
    ∀ (fileName : CString) (line : Int32) (str_t : CString) (items : List Item),
      (∀ entry ∈ inserted fileName line str_t items, entry.Admitted) →
      ∃ buf, record uninitialised size fileName line str_t items = .ok buf ∧
        (LogStream.new uninitialised size).insertAll (inserted fileName line str_t items) = .ok ⟨buf⟩ ∧
        (buf.length : Int) < (FixedBuffer.new : FixedBuffer SmallBuffer).avail ∧
        ∀ (events : List AsyncLogging.Event) (log : AsyncLogging), run AsyncLogging.step .new events = some log →
          ∃ next, output log buf = .ok next ∧ next.stream = log.stream ++ buf.contents := by
  constructor
  · intro past item admitted itemAdmitted
    obtain ⟨before, ran, room⟩ := LogStream.insertAll_spec (LogStream.new_room size) admitted
    obtain ⟨after, inserted, whole⟩ := LogStream.insert_spec room itemAdmitted
    exact ⟨before, after, ran, inserted, whole.contents, Nat.le_of_lt_succ whole.room⟩
  · intro fileName line str_t items admitted
    obtain ⟨buf, recorded, ran, room⟩ := record_spec size admitted
    exact ⟨buf, recorded, ran, Int.ofNat_lt.mpr room, fun events log reached => output_spec reached room⟩

/-- A string that leaves no room for the numbers behind it. -/
theorem output_keeps_record_full :
    let items : List Item := [.bool true, .long Int64.minValue, .pointer 51966, .double (ascii "0.1"),
      .string (List.replicate 3900 97), .cString none, .unsignedShort 65535]
    ∃ buf next, record (List.replicate SmallBuffer 0) List.length_replicate ⟨ascii "main.cc", by decide⟩ 7
        ⟨ascii "2020-01-01 00:00:00\n", by decide⟩ items = .ok buf ∧
      output .new buf = .ok next ∧ next.stream = AsyncLogging.new.stream ++ buf.contents := by
  intro items
  obtain ⟨_, written⟩ := output_keeps_record (List.replicate SmallBuffer 0) List.length_replicate
  obtain ⟨buf, recorded, _, _, kept⟩ := written ⟨ascii "main.cc", by decide⟩ 7
    ⟨ascii "2020-01-01 00:00:00\n", by decide⟩ items (by decide +kernel)
  obtain ⟨next, appended, shown⟩ := kept [] .new rfl
  exact ⟨buf, next, recorded, appended, shown⟩

end Logger

end NutServer.Base
