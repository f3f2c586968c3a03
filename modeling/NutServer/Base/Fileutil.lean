import NutServer.Base.Outcome
import NutServer.Library.Cells

/-!
# Appending to a file

`nut::AppendFile`. What `fwrite_unlocked` takes of the bytes it is offered is the
device's choice, write by write.
-/

set_option autoImplicit false

namespace NutServer.Base

open Library

/-- The answers of the file system and of `strerror_r`. -/
structure Device where
  result : Nat → (offered : Nat) → Fin (offered + 1)
  /-- `ferror` after so many writes. -/
  error : Nat → Int
  strerror : Int → Bytes

structure AppendFile where
  contents : Bytes
  /-- The results of the writes so far. -/
  results : List Nat
  stderr : Bytes
  deriving DecidableEq, Repr

namespace AppendFile

/-- `write(message + start, len)`. -/
def write (device : Device) (file : AppendFile) (message : Bytes) (start len : Nat) : Outcome (AppendFile × Nat) :=
  if start + len ≤ message.length then
    let result : Nat := device.result file.results.length len
    let contents := file.contents ++ slice message start (start + result)
    .ok ({ file with contents, results := file.results ++ [result] }, result)
  else .error .range

/-- What the loop prints before it gives up. -/
def report (device : Device) (file : AppendFile) : AppendFile :=
  let err := device.error file.results.length
  if err ≠ 0 then
    { file with stderr := file.stderr ++ ascii "AppendFile::append() failed " ++ device.strerror err ++ ascii "\n" }
  else file

structure AppendLocals where
  file : AppendFile
  n : Nat
  remain : Nat

def appendBody (device : Device) (message : Bytes) (len : Nat) (locals : AppendLocals) :
    Outcome (Turn AppendLocals AppendFile) :=
  if 0 < locals.remain then do
    let written ← locals.file.write device message locals.n locals.remain
    if written.2 = 0 then return .leave (written.1.report device)
    else
      let n := locals.n + written.2
      return .again ⟨written.1, n, sizeSub len n⟩
  else return .leave locals.file

/-- Every turn that goes on has written a byte, so that `len + 1` are enough. -/
def append (device : Device) (file : AppendFile) (message : Bytes) (len : Nat) : Outcome AppendFile := do
  let written ← file.write device message 0 len
  watch (appendBody device message len) (len + 1) ⟨written.1, written.2, sizeSub len written.2⟩

variable {device : Device} {message : Bytes} {len n turns : Nat}

theorem write_spec (device : Device) (file : AppendFile) {start : Nat} (inside : start + len ≤ message.length) :
    ∃ written x, file.write device message start len = .ok (written, x) ∧ x ≤ len ∧
      written.contents = file.contents ++ slice message start (start + x) ∧
      written.results = file.results ++ [x] ∧ written.stderr = file.stderr ∧
      x = device.result file.results.length len := by
  refine ⟨_, _, if_pos inside, ?_, rfl, rfl, rfl, rfl⟩
  exact Nat.le_of_lt_succ (device.result file.results.length len).isLt

@[simp] theorem contents_report (file : AppendFile) : (file.report device).contents = file.contents := by
  simp only [report]
  split_ifs <;> rfl

@[simp] theorem results_report (file : AppendFile) : (file.report device).results = file.results := by
  simp only [report]
  split_ifs <;> rfl

/-- The message has been written up to `stop`, in the writes of `later`, and
only a write of nothing stops before its end. -/
structure Wrote (device : Device) (file final : AppendFile) (message : Bytes) (len start stop : Nat)
    (later : List Nat) : Prop where
  forward : start ≤ stop
  bounded : stop ≤ len
  contents : final.contents = file.contents ++ slice message start stop
  results : final.results = file.results ++ later
  drawn : ∀ x ∈ later, ∃ writes offered, 0 < offered ∧ x = device.result writes offered
  advance : stop = start + later.sum
  complete_iff : stop = len ↔ 0 ∉ later
  quiet : stop = len → final.stderr = file.stderr

theorem watch_appendBody (device : Device) (turns : Nat) (inside : len ≤ message.length) (file : AppendFile)
    (within : n ≤ len) (enough : len - n < turns) :
    ∃ final stop later, watch (appendBody device message len) turns ⟨file, n, len - n⟩ = .ok final ∧
      Wrote device file final message len n stop later := by
  induction turns generalizing file n with
  | zero => omega
  | succ turns ih =>
      by_cases going : 0 < len - n
      · obtain ⟨written, x, wrote, bound, contents, results, stderr, drawn⟩ :=
          write_spec device file (show n + (len - n) ≤ message.length by omega)
        by_cases stuck : x = 0
        · subst stuck
          have turn : appendBody device message len ⟨file, n, len - n⟩ = .ok (.leave (written.report device)) := by
            simp only [appendBody, if_pos going, wrote, Outcome.ok_bind, if_true]
            rfl
          refine ⟨_, n, [0], watch_leave turn, le_refl n, within, ?_, ?_, ?_, rfl, ?_, ?_⟩
          · rw [contents_report, contents, Nat.add_zero]
          · rw [results_report, results]
          · exact List.forall_mem_singleton.mpr ⟨_, _, going, drawn⟩
          · simp only [List.mem_singleton, not_true_eq_false, iff_false]
            omega
          · omega
        · have turn : appendBody device message len ⟨file, n, len - n⟩ =
              .ok (.again ⟨written, n + x, len - (n + x)⟩) := by
            simp only [appendBody, if_pos going, wrote, Outcome.ok_bind, if_neg stuck,
              sizeSub_of_le (show n + x ≤ len by omega)]
            rfl
          obtain ⟨final, stop, later, watched, rest⟩ :=
            ih written (show n + x ≤ len by omega) (show len - (n + x) < turns by omega)
          have forward := rest.forward
          refine ⟨final, stop, x :: later, (watch_again turn).trans watched, by omega, rest.bounded,
            ?_, ?_, ?_, ?_, ?_, ?_⟩
          · rw [rest.contents, contents, List.append_assoc, slice_append (n + x) (by omega) forward]
          · rw [rest.results, results, List.append_assoc, List.singleton_append]
          · exact List.forall_mem_cons.mpr ⟨⟨_, _, going, drawn⟩, rest.drawn⟩
          · rw [rest.advance, List.sum_cons, Nat.add_assoc]
          · rw [rest.complete_iff, List.mem_cons, not_or]
            exact ⟨fun absent => ⟨Ne.symm stuck, absent⟩, fun both => both.2⟩
          · exact fun complete => (rest.quiet complete).trans stderr
      · have turn : appendBody device message len ⟨file, n, len - n⟩ = .ok (.leave file) := by
          simp only [appendBody, if_neg going]
          rfl
        refine ⟨file, n, [], watch_leave turn, le_refl n, within, ?_, ?_, nofun, rfl, ?_, fun _ => rfl⟩
        · rw [slice_self, List.append_nil]
        · rw [List.append_nil]
        · simp only [List.not_mem_nil, not_false_iff, iff_true]
          omega

/-- Every call ends, and has added a prefix of the message: the whole of it
exactly when no write in the loop returned 0. -/
theorem append_once (device : Device) (file : AppendFile) (message : Bytes) (len : Nat)
    (inside : len ≤ message.length) :
    ∃ final added first later, file.append device message len = .ok final ∧ added ≤ len ∧
      final.contents = file.contents ++ message.take added ∧ final.results = file.results ++ first :: later ∧
      added = first + later.sum ∧ (added = len ↔ 0 ∉ later) ∧ (added = len → final.stderr = file.stderr) := by
  obtain ⟨written, x, wrote, bound, contents, results, stderr, -⟩ :=
    write_spec device file (show 0 + len ≤ message.length by omega)
  obtain ⟨final, stop, later, watched, rest⟩ :=
    watch_appendBody device (len + 1) inside written bound (by omega)
  have forward := rest.forward
  rw [Nat.zero_add] at contents
  refine ⟨final, stop, x, later, ?_, rest.bounded, ?_, ?_, rest.advance, rest.complete_iff, ?_⟩
  · rw [append, wrote, Outcome.ok_bind]
    simp only
    rw [sizeSub_of_le bound]
    exact watched
  · rw [rest.contents, contents, List.append_assoc, slice_append x (Nat.zero_le x) forward, slice, List.drop_zero]
  · rw [rest.results, results, List.append_assoc, List.singleton_append]
  · exact fun complete => (rest.quiet complete).trans stderr

/-- The write in front of the loop takes nothing. -/
theorem append_once_short :
    ∃ final added first later, (AppendFile.mk [] [] []).append
        ⟨fun past offered => if past = 0 then ⟨0, by omega⟩ else Fin.last offered, fun _ => 0, fun _ => []⟩
        [97, 98, 99] 3 = .ok final ∧ added ≤ 3 ∧
      final.contents = [] ++ List.take added [97, 98, 99] ∧ final.results = [] ++ first :: later ∧
      added = first + later.sum ∧ (added = 3 ↔ 0 ∉ later) ∧ (added = 3 → final.stderr = []) :=
  append_once _ _ _ _ (by decide)

end AppendFile

end NutServer.Base
