import NutServer.Base.AsyncLoggingStop
import NutServer.Base.LogFile

/-!
# The logging thread and its file

`threadFunc` with its local `output`: what the thread has written, and what of it
has reached the disk.
-/

set_option autoImplicit false

namespace NutServer.Base

open Library

structure LogPipeline where
  log : AsyncLogging
  output : Logfile

namespace LogPipeline

open AsyncLogging

def new : LogPipeline where
  log := .new
  output := .new

/-- The calls of `output` in the next step of `threadFunc`. -/
def follow (storage : Storage) (log : AsyncLogging) (output : Logfile) : Outcome Logfile :=
  match log.backend with
  | .loopHead => return if log.running then output else output.flush storage
  | .writing index =>
      match log.buffersToWrite[index]? with
      | some pointer => do
          let buffer ← deref pointer
          output.append storage buffer.data buffer.length
      | none => return output.flush storage
  | .unstarted | .entered | .locking | .waiting | .finished => return output

def perform (storage : Storage) (pipeline : LogPipeline) (event : Event) : Outcome LogPipeline := do
  let log ← pipeline.log.perform event
  let output ← if event = .backend then follow storage pipeline.log pipeline.output else .ok pipeline.output
  return { log, output }

def step (storage : Storage) (pipeline : LogPipeline) (event : Event) : Option LogPipeline :=
  if event.Enabled pipeline.log then (pipeline.perform storage event).toOption else none

variable {storage : Storage} {pipeline : LogPipeline}

def Resting (log : AsyncLogging) : Prop := ∀ index, log.backend ≠ .writing index

/-- The file has what was written, in its order, and outside the write loop all
of it has been flushed. -/
structure Sound (storage : Storage) (pipeline : LogPipeline) : Prop where
  log : pipeline.log.Sound
  idle : pipeline.log.backend = .waiting → pipeline.log.buffers = []
  output : pipeline.output.Sound storage
  written : pipeline.output.file.contents.Sublist pipeline.log.written
  whole : storage.Takes → pipeline.output.file.contents = pipeline.log.written
  flushed : storage.Flushes → Resting pipeline.log → pipeline.output.buffered = 0

theorem new_sound : Sound storage new where
  log := AsyncLogging.new_sound
  idle waiting := by cases waiting
  output := Logfile.new_sound
  written := .refl _
  whole _ := rfl
  flushed _ _ := rfl

/-- A step that writes nothing, and does not leave the write loop. -/
theorem Sound.elsewhere (sound : Sound storage pipeline) {log : AsyncLogging} (nextSound : log.Sound)
    (idle : log.backend = .waiting → log.buffers = []) (written : log.written = pipeline.log.written)
    (resting : Resting log → Resting pipeline.log) : Sound storage { pipeline with log } where
  log := nextSound
  idle := idle
  output := sound.output
  written := by
    rw [written]
    exact sound.written
  whole takes := (sound.whole takes).trans written.symm
  flushed flushes isResting := sound.flushed flushes (resting isResting)

/-- A step that writes nothing, and flushes. -/
theorem Sound.flush (sound : Sound storage pipeline) {log : AsyncLogging} (nextSound : log.Sound)
    (idle : log.backend = .waiting → log.buffers = []) (written : log.written = pipeline.log.written) :
    Sound storage { log, output := pipeline.output.flush storage } where
  log := nextSound
  idle := idle
  output := sound.output.flush
  written := by
    rw [written]
    exact sound.written
  whole takes := (sound.whole takes).trans written.symm
  flushed flushes _ := Logfile.flush_buffered _ flushes

private theorem resting_of_eq {log next : AsyncLogging} (same : next.backend = log.backend) (resting : Resting next) :
    Resting log := fun index writing => resting index (same.trans writing)

private theorem resting_of_ne {log : AsyncLogging} {backend : Backend} (here : log.backend = backend)
    (other : ∀ index, backend ≠ .writing index) : Resting log := fun index writing =>
  other index (here.symm.trans writing)

/-- The steps of other threads leave what was written, and the write loop. -/
theorem perform_elsewhere {log next : AsyncLogging} {event : Event} (other : event ≠ .backend)
    (enabled : event.Enabled log) (performed : log.perform event = .ok next) :
    next.written = log.written ∧ (Resting next → Resting log) := by
  cases event with
  | append message =>
      obtain ⟨_, _, _, written, stayed | woken⟩ := append_frame performed
      · exact ⟨written, resting_of_eq stayed⟩
      · exact ⟨written, fun _ => resting_of_ne woken.1 fun _ => Backend.noConfusion⟩
  | backend => exact absurd rfl other
  | start =>
      have unstarted : log.backend = .unstarted := enabled
      cases performed
      exact ⟨rfl, fun _ => resting_of_ne unstarted fun _ => Backend.noConfusion⟩
  | spuriousWakeup =>
      have waiting : log.backend = .waiting := enabled
      cases performed
      exact ⟨rfl, fun _ => resting_of_ne waiting fun _ => Backend.noConfusion⟩
  | stopStore | stopJoin =>
      cases performed
      exact ⟨rfl, id⟩
  | stopNotify =>
      cases performed
      unfold notify
      split_ifs with waiting
      · exact ⟨rfl, fun _ => resting_of_ne waiting fun _ => Backend.noConfusion⟩
      · exact ⟨rfl, id⟩

private theorem perform_backend (sound : Sound storage pipeline) {log : AsyncLogging} (nextSound : log.Sound)
    (idle : log.backend = .waiting → log.buffers = []) (stepped : pipeline.log.threadFunc = .ok log) :
    ∃ output, follow storage pipeline.log pipeline.output = .ok output ∧ Sound storage { log, output } := by
  cases threadFunc_cases stepped with
  | rests resting =>
      refine ⟨pipeline.output, ?_, sound⟩
      rcases resting with backend | backend | backend <;> rw [follow, backend] <;> rfl
  | enters backend | waits backend =>
      refine ⟨pipeline.output, by rw [follow, backend]; rfl, sound.elsewhere nextSound idle rfl ?_⟩
      exact fun _ => resting_of_ne backend fun _ => Backend.noConfusion
  | locks backend running =>
      refine ⟨pipeline.output, by rw [follow, backend]; simp only [running, if_true]; rfl,
        sound.elsewhere nextSound idle rfl ?_⟩
      exact fun _ => resting_of_ne backend fun _ => Backend.noConfusion
  | leaves backend stopped =>
      refine ⟨_, ?_, sound.flush nextSound idle rfl⟩
      rw [follow, backend]
      simp only [stopped, Bool.false_eq_true, if_false]
      rfl
  | swaps backend queued =>
      refine ⟨pipeline.output, by rw [follow, backend]; rfl, sound.elsewhere nextSound idle ?_ ?_⟩
      · unfold replaceSpare
        split_ifs <;> rfl
      · exact fun _ => resting_of_ne backend fun _ => Backend.noConfusion
  | writes backend selected =>
      rename_i index buffer
      have inside : buffer.length ≤ buffer.data.length := le_rfl
      obtain ⟨output, added, appended, outputSound, _, contents, all⟩ :=
        Logfile.append_spec sound.output inside buffer.fits
      refine ⟨output, by simp only [follow, backend, selected]; exact appended, nextSound, idle, outputSound, ?_, ?_, ?_⟩
      · rw [contents]
        exact sound.written.append (List.take_sublist _ _)
      · intro takes
        rw [contents, sound.whole takes, all takes, FixedBuffer.length, List.take_length]
      · exact fun _ resting => absurd rfl (resting (index + 1))
  | recycles newBuffer1 newBuffer2 backend all =>
      exact ⟨_, by simp only [follow, backend, all]; rfl, sound.flush nextSound idle rfl⟩

theorem perform_sound (sound : Sound storage pipeline) {event : Event} (enabled : event.Enabled pipeline.log)
    (short : event.Short) :
    ∃ next, pipeline.perform storage event = .ok next ∧ Sound storage next ∧
      next.log.stream = pipeline.log.stream ++ event.message := by
  obtain ⟨log, performed, nextSound, shown⟩ := perform_spec sound.log enabled short
  have idle := perform_waits_idle sound.idle performed
  by_cases isBackend : event = .backend
  · subst isBackend
    obtain ⟨output, followed, kept⟩ := perform_backend sound nextSound idle performed
    refine ⟨{ log, output }, ?_, kept, shown⟩
    rw [perform, performed, Outcome.ok_bind, if_pos rfl, followed]
    rfl
  · obtain ⟨written, resting⟩ := perform_elsewhere isBackend enabled performed
    refine ⟨{ pipeline with log }, ?_, sound.elsewhere nextSound idle written resting, shown⟩
    rw [perform, performed, Outcome.ok_bind, if_neg isBackend]
    rfl

end LogPipeline

end NutServer.Base
