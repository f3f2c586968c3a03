import NutServer.Base.AsyncLogging
import NutServer.Base.Fileutil

/-!
# The log file

`nut::Logfile` over `nut::AppendFile`, with the buffer that stdio keeps between
`fwrite_unlocked` and the kernel.
-/

set_option autoImplicit false

namespace NutServer.Base

open Library

/-- The file system below stdio. Of the bytes that stdio has buffered it takes
some on its own behind a write, and some in a call of `fflush`. -/
structure Storage where
  device : Device
  spill : (writes : Nat) → (buffered : Nat) → Fin (buffered + 1)
  fflush : (flushes : Nat) → (buffered : Nat) → Fin (buffered + 1)

/-- Every write takes something, in however many pieces. -/
def Storage.Takes (storage : Storage) : Prop :=
  ∀ writes offered, 0 < offered → 0 < (storage.device.result writes offered : Nat)

/-- No call of `fflush` fails. -/
def Storage.Flushes (storage : Storage) : Prop :=
  ∀ flushes buffered, (storage.fflush flushes buffered : Nat) = buffered

structure Logfile where
  count : Nat
  file : AppendFile
  /-- So many bytes of the file have left the buffer of stdio. -/
  passed : Nat
  flushes : Nat
  deriving DecidableEq, Repr

namespace Logfile

/-- `fileAppendTimesLimit`. -/
def limit : Nat := 5

/-- The file is opened for appending; `contents` is what is added to it. -/
def new : Logfile where
  count := 0
  file := ⟨[], [], []⟩
  passed := 0
  flushes := 0

def buffered (output : Logfile) : Nat := output.file.contents.length - output.passed

def flush (storage : Storage) (output : Logfile) : Logfile :=
  { output with
    passed := output.passed + storage.fflush output.flushes output.buffered
    flushes := output.flushes + 1 }

/-- `file_->append`. -/
def appendToFile (storage : Storage) (output : Logfile) (message : Bytes) (len : Nat) : Outcome Logfile := do
  let file ← output.file.append storage.device message len
  let output := { output with file }
  return { output with passed := output.passed + storage.spill file.results.length output.buffered }

def append (storage : Storage) (output : Logfile) (message : Bytes) (len : Nat) : Outcome Logfile := do
  let appended ← output.appendToFile storage message len
  let output := { appended with count := appended.count + 1 }
  return if limit ≤ output.count then { output.flush storage with count := 0 } else output

end Logfile

section AppendFile

variable {message : Bytes} {len : Nat}

/-- A prefix of the message is added, and all of it by a device that takes
something of all it is offered. -/
theorem append_prefix (device : Device) (file : AppendFile) (inside : len ≤ message.length) :
    ∃ final added, file.append device message len = .ok final ∧ added ≤ len ∧
      final.contents = file.contents ++ message.take added ∧
      ((∀ writes offered, 0 < offered → 0 < (device.result writes offered : Nat)) → added = len) := by
  obtain ⟨written, x, wrote, bound, contents, _⟩ :=
    AppendFile.write_spec device file (show 0 + len ≤ message.length by omega)
  rw [Nat.zero_add] at contents
  have called : file.append device message len =
      watch (AppendFile.appendBody device message len) (len + 1) ⟨written, x, len - x⟩ := by
    rw [AppendFile.append, wrote, Outcome.ok_bind]
    simp only
    rw [sizeSub_of_le bound]
  obtain ⟨final, stop, later, watched, rest⟩ :=
    AppendFile.watch_appendBody device (len + 1) inside written bound (by omega)
  refine ⟨final, stop, called.trans watched, rest.bounded, ?_, fun takes => rest.complete_iff.mpr fun nothing => ?_⟩
  · rw [rest.contents, contents, List.append_assoc, slice_append x (Nat.zero_le x) rest.forward, slice, List.drop_zero]
  · obtain ⟨writes, offered, some, none⟩ := rest.drawn 0 nothing
    exact absurd none (takes writes offered some).ne

end AppendFile

namespace Logfile

variable {storage : Storage} {output next : Logfile} {message : Bytes} {len : Nat}

/-- What stdio holds is of the appends since the last flush, which are fewer
than the limit. -/
structure Sound (storage : Storage) (output : Logfile) : Prop where
  passed : output.passed ≤ output.file.contents.length
  count : output.count < limit
  held : storage.Flushes → output.buffered ≤ output.count * SmallBuffer

theorem new_sound : Sound storage new where
  passed := le_rfl
  count := by decide
  held _ := Nat.zero_le _

private theorem flush_passed (storage : Storage) (output : Logfile) : (output.flush storage).passed ≤ output.passed + output.buffered :=
  Nat.add_le_add_left (Nat.le_of_lt_succ (storage.fflush output.flushes output.buffered).isLt) _

theorem flush_buffered (output : Logfile) (flushes : storage.Flushes) : (output.flush storage).buffered = 0 := by
  have all := flushes output.flushes output.buffered
  simp only [buffered] at all
  simp only [flush, buffered, all]
  omega

theorem Sound.flush (sound : Sound storage output) : Sound storage (output.flush storage) where
  passed := by
    have bound := output.flush_passed storage
    have before := sound.passed
    simp only [Logfile.buffered] at bound
    simp only [Logfile.flush] at bound ⊢
    omega
  count := sound.count
  held flushes := by
    rw [flush_buffered output flushes]
    exact Nat.zero_le _

theorem append_spec (sound : Sound storage output) (inside : len ≤ message.length) (small : len ≤ SmallBuffer) :
    ∃ next added, output.append storage message len = .ok next ∧ Sound storage next ∧ added ≤ len ∧
      next.file.contents = output.file.contents ++ message.take added ∧ (storage.Takes → added = len) := by
  obtain ⟨file, added, appended, bound, contents, whole⟩ := append_prefix storage.device output.file inside
  have grown : file.contents.length = output.file.contents.length + added := by
    rw [contents, List.length_append, List.length_take, Nat.min_eq_left (bound.trans inside)]
  have before := sound.passed
  let filled : Logfile := { output with file }
  let spilled : Logfile := { filled with
    passed := output.passed + storage.spill file.results.length filled.buffered
    count := output.count + 1 }
  have spill := Nat.le_of_lt_succ (storage.spill file.results.length filled.buffered).isLt
  have filledBuffered : filled.buffered = output.buffered + added := by
    simp only [buffered, filled, grown]
    omega
  have passed : spilled.passed ≤ spilled.file.contents.length := by
    simp only [spilled, filled, buffered] at spill ⊢
    omega
  have held : storage.Flushes → spilled.buffered ≤ spilled.count * SmallBuffer := by
    intro flushes
    calc spilled.buffered ≤ filled.buffered := by simp only [buffered, spilled, filled]; omega
      _ = output.buffered + added := filledBuffered
      _ ≤ output.count * SmallBuffer + SmallBuffer := Nat.add_le_add (sound.held flushes) (bound.trans small)
      _ = (output.count + 1) * SmallBuffer := (Nat.succ_mul _ _).symm
  have called : output.append storage message len =
      .ok (if limit ≤ spilled.count then { spilled.flush storage with count := 0 } else spilled) := by
    simp only [append, appendToFile, appended, Outcome.ok_bind]
    rfl
  by_cases full : limit ≤ spilled.count
  · rw [if_pos full] at called
    refine ⟨_, added, called, ?_, bound, contents, whole⟩
    have flushed := spilled.flush_passed storage
    refine ⟨?_, show 0 < limit by decide, fun flushes => ?_⟩
    · simp only [buffered, flush] at flushed ⊢
      omega
    · exact (flush_buffered spilled flushes).le.trans (Nat.zero_le _)
  · rw [if_neg full] at called
    exact ⟨spilled, added, called, ⟨passed, not_le.mp full, held⟩, bound, contents, whole⟩

end Logfile

end NutServer.Base
