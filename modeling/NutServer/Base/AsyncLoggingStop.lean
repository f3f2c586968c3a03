import NutServer.Base.AsyncLoggingProperties
import NutServer.Library.Progress

/-!
# Stopping the logging thread

`stop()` clears `running_`, notifies and joins. The thread looks at `running_`
only at the head of its loop, so what `stop()` does depends on where in the loop
the thread is when it is called.
-/

set_option autoImplicit false

namespace NutServer.Base

open Library

namespace AsyncLogging

variable {log next : AsyncLogging} {event : Event}

/-- All a step of the logging thread can do, one case for each way through its code. -/
inductive ThreadStep (log : AsyncLogging) : AsyncLogging → Prop where
  | rests (resting : log.backend = .unstarted ∨ log.backend = .waiting ∨ log.backend = .finished) :
      ThreadStep log log
  | enters (backend : log.backend = .entered) : ThreadStep log { log with
      newBuffer1 := some .new
      newBuffer2 := some .new
      buffersToWrite := []
      backend := .loopHead }
  | locks (backend : log.backend = .loopHead) (running : log.running = true) :
      ThreadStep log { log with backend := .locking }
  | leaves (backend : log.backend = .loopHead) (stopped : log.running = false) :
      ThreadStep log { log with backend := .finished }
  | waits (backend : log.backend = .locking) (idle : log.buffers = []) :
      ThreadStep log { log with backend := .waiting }
  | swaps (backend : log.backend = .locking) (queued : log.buffers ≠ []) :
      ThreadStep log log.takeBuffers.replaceSpare
  | writes {index : Nat} {buffer : Buffer} (backend : log.backend = .writing index)
      (selected : log.buffersToWrite[index]? = some (some buffer)) : ThreadStep log { log with
        written := log.written ++ buffer.data
        backend := .writing (index + 1) }
  | recycles {index : Nat} (newBuffer1 newBuffer2 : UBufferPtr) (backend : log.backend = .writing index)
      (all : log.buffersToWrite[index]? = none) : ThreadStep log { log with
        newBuffer1
        newBuffer2
        buffersToWrite := []
        backend := .loopHead }

theorem threadFunc_cases (stepped : log.threadFunc = .ok next) : ThreadStep log next := by
  unfold threadFunc at stepped
  cases backend : log.backend with
  | unstarted | waiting | finished =>
      rw [backend] at stepped
      cases stepped
      exact .rests (by simp [backend])
  | entered =>
      simp only [backend, enter] at stepped
      obtain ⟨_, _, stepped⟩ := Outcome.bind_eq_ok_iff.mp stepped
      cases stepped
      exact .enters backend
  | loopHead =>
      simp only [backend, loopHead] at stepped
      split_ifs at stepped with running
      · obtain ⟨_, _, stepped⟩ := Outcome.bind_eq_ok_iff.mp stepped
        obtain ⟨_, _, stepped⟩ := Outcome.bind_eq_ok_iff.mp stepped
        obtain ⟨_, _, stepped⟩ := Outcome.bind_eq_ok_iff.mp stepped
        cases stepped
        exact .locks backend running
      · cases stepped
        exact .leaves backend (Bool.eq_false_iff.mpr running)
  | locking =>
      simp only [backend, swapBuffers] at stepped
      split_ifs at stepped with idle
      · cases stepped
        exact .waits backend idle
      · obtain ⟨_, _, stepped⟩ := Outcome.bind_eq_ok_iff.mp stepped
        cases stepped
        exact .swaps backend idle
  | writing index =>
      simp only [backend, write] at stepped
      cases selected : log.buffersToWrite[index]? with
      | some pointer =>
          simp only [selected] at stepped
          cases pointer with
          | none => cases stepped
          | some buffer =>
              cases stepped
              exact .writes backend selected
      | none =>
          simp only [selected, recycle] at stepped
          obtain ⟨⟨newBuffer1, kept⟩, _, stepped⟩ := Outcome.bind_eq_ok_iff.mp stepped
          obtain ⟨⟨newBuffer2, rest⟩, _, stepped⟩ := Outcome.bind_eq_ok_iff.mp stepped
          cases stepped
          exact .recycles newBuffer1 newBuffer2 backend selected

theorem ThreadStep.stopper (stepped : ThreadStep log next) : next.stopper = log.stopper := by
  cases stepped with
  | swaps => unfold replaceSpare; split_ifs <;> rfl
  | rests | enters | locks | leaves | waits | writes | recycles => rfl

/-- What the thread has written or is about to write before it looks at
`running_` again. -/
def taken (log : AsyncLogging) : Bytes := log.written ++ held log.unwritten

/-- The thread is past its wait: it finishes once `running_` is cleared. -/
def Past (log : AsyncLogging) : Prop :=
  match log.backend with
  | .loopHead | .writing _ | .finished => True
  | _ => False

/-- A call of `stop()` in this state loses nothing: the thread has still to take
all buffers, or there is nothing left to take. -/
def Drains (log : AsyncLogging) : Prop :=
  log.backend = .locking ∨ log.backend = .waiting ∨ held log.buffers ++ contents log.currentBuffer = []

instance decidableDrains (log : AsyncLogging) : Decidable log.Drains :=
  inferInstanceAs (Decidable (log.backend = .locking ∨ log.backend = .waiting ∨
    held log.buffers ++ contents log.currentBuffer = []))

private theorem stream_eq_taken : log.stream = log.taken ++ (held log.buffers ++ contents log.currentBuffer) := by
  simp [stream, taken]

private theorem Past.not_waiting (past : log.Past) : log.backend ≠ .waiting := by
  intro waiting
  simp [Past, waiting] at past

private theorem notify_of_not_waiting (busy : log.backend ≠ .waiting) : log.notify = log := if_neg busy

/-- An append leaves the thread where it is, unless it wakes it. -/
theorem append_frame {message : Bytes} (appended : log.append message = .ok next) :
    next.running = log.running ∧ next.stopper = log.stopper ∧ next.taken = log.taken ∧
      next.written = log.written ∧
      (next.backend = log.backend ∨ (log.backend = .waiting ∧ next.backend = .locking)) := by
  obtain ⟨current, filled, _, ⟨_, _, rfl⟩ | ⟨_, _, rfl⟩⟩ := append_cases appended
  · exact ⟨rfl, rfl, rfl, rfl, .inl rfl⟩
  · unfold notify
    split_ifs with waiting
    · exact ⟨rfl, rfl, by simp [taken, unwritten, show log.backend = .waiting from waiting], rfl,
        .inr ⟨waiting, rfl⟩⟩
    · exact ⟨rfl, rfl, rfl, rfl, .inl rfl⟩

private theorem taken_of_idle (log : AsyncLogging) (idle : ∀ index, log.backend ≠ .writing index) :
    log.taken = log.written := by
  have nothing : log.unwritten = [] := by
    unfold unwritten
    split
    · next index writing => exact absurd writing (idle index)
    · rfl
  rw [taken, nothing, held_nil, List.append_nil]

/-- The swap hands everything that was appended to the write loop. -/
theorem taken_swap (sound : log.Sound) (locking : log.backend = .locking) (queued : log.buffers ≠ []) :
    log.takeBuffers.replaceSpare.taken = log.stream := by
  have locals := sound.locals
  simp only [Locals, locking] at locals
  obtain ⟨fresh1, _, nothing⟩ := locals
  obtain ⟨buffer1, isBuffer1, empty1⟩ := exists_of_isFresh fresh1
  obtain ⟨takenSound, takenStream⟩ := sound.takeBuffers locking queued
  obtain ⟨_, shown, _⟩ := takenSound.replaceSpare rfl
  have emptied : held log.takeBuffers.replaceSpare.buffers ++
      contents log.takeBuffers.replaceSpare.currentBuffer = [] := by
    unfold replaceSpare
    split_ifs <;> simp [takeBuffers, nothing, isBuffer1, contents, empty1]
  rw [← takenStream, ← shown, stream_eq_taken, emptied, List.append_nil]

private theorem ThreadStep.taken_cases (stepped : ThreadStep log next) (sound : log.Sound) :
    next.taken = log.taken ∨ (log.backend = .locking ∧ next.taken = log.stream) := by
  cases stepped with
  | rests => exact .inl rfl
  | enters backend | locks backend | leaves backend | waits backend =>
      refine .inl ?_
      rw [taken_of_idle _ (by simp), taken_of_idle log (by simp [backend])]
  | swaps backend queued => exact .inr ⟨backend, taken_swap sound backend queued⟩
  | writes backend selected =>
      obtain ⟨inside, isBuffer⟩ := List.getElem?_eq_some_iff.mp selected
      have rest := List.drop_eq_getElem_cons inside
      rw [isBuffer] at rest
      exact .inl (by simp [taken, unwritten, backend, rest, contents])
  | recycles newBuffer1 newBuffer2 backend all =>
      have done := List.drop_eq_nil_of_le (List.getElem?_eq_none_iff.mp all)
      exact .inl (by simp [taken, unwritten, backend, done])

private theorem perform_taken (sound : log.Sound) (enabled : event.Enabled log)
    (performed : log.perform event = .ok next) :
    next.taken = log.taken ∨ (log.backend = .locking ∧ next.taken = log.stream) := by
  cases event with
  | append message => exact .inl (append_frame performed).2.2.1
  | backend => exact (threadFunc_cases performed).taken_cases sound
  | start =>
      have unstarted : log.backend = .unstarted := enabled
      cases performed
      exact .inl (by rw [taken_of_idle _ (by simp), taken_of_idle log (by simp [unstarted])])
  | spuriousWakeup =>
      have waiting : log.backend = .waiting := enabled
      cases performed
      exact .inl (by rw [taken_of_idle _ (by simp), taken_of_idle log (by simp [waiting])])
  | stopStore | stopJoin =>
      cases performed
      exact .inl rfl
  | stopNotify =>
      cases performed
      unfold notify
      split_ifs with waiting
      · exact .inl (by simp [taken, unwritten, show log.backend = .waiting from waiting])
      · exact .inl rfl

/-- A thread that locks or waits goes on to do so, or has taken everything. -/
theorem perform_waits (sound : log.Sound) (enabled : event.Enabled log)
    (waits : log.backend = .locking ∨ log.backend = .waiting) (performed : log.perform event = .ok next) :
    (next.backend = .locking ∨ next.backend = .waiting) ∨ next.taken = log.stream := by
  cases event with
  | append message =>
      rcases (append_frame performed).2.2.2.2 with same | woken
      · exact .inl (same ▸ waits)
      · exact .inl (.inl woken.2)
  | backend =>
      cases threadFunc_cases performed with
      | rests => exact .inl waits
      | waits => exact .inl (.inr rfl)
      | swaps backend queued => exact .inr (taken_swap sound backend queued)
      | enters backend | locks backend | leaves backend | writes backend | recycles _ _ backend =>
          simp [backend] at waits
  | start =>
      have unstarted : log.backend = .unstarted := enabled
      simp [unstarted] at waits
  | spuriousWakeup =>
      cases performed
      exact .inl (.inl rfl)
  | stopStore | stopJoin =>
      cases performed
      exact .inl waits
  | stopNotify =>
      cases performed
      unfold notify
      split_ifs
      · exact .inl (.inl rfl)
      · exact .inl waits

/-- Once `running_` is cleared behind its wait, the thread takes nothing more. -/
theorem perform_past (past : log.Past) (stopped : log.running = false) (enabled : event.Enabled log)
    (performed : log.perform event = .ok next) : next.Past ∧ next.running = false := by
  have busy := past.not_waiting
  cases event with
  | append message =>
      obtain ⟨running, _, _, _, same | woken⟩ := append_frame performed
      · exact ⟨by rwa [Past, same], running.trans stopped⟩
      · exact absurd woken.1 busy
  | backend =>
      cases threadFunc_cases performed with
      | rests => exact ⟨past, stopped⟩
      | locks _ running => simp [running] at stopped
      | leaves | writes | recycles => exact ⟨trivial, stopped⟩
      | enters backend | waits backend | swaps backend => simp [Past, backend] at past
  | start =>
      have unstarted : log.backend = .unstarted := enabled
      simp [Past, unstarted] at past
  | spuriousWakeup => exact absurd enabled busy
  | stopStore =>
      cases performed
      exact ⟨past, rfl⟩
  | stopJoin =>
      cases performed
      exact ⟨past, stopped⟩
  | stopNotify =>
      cases performed
      rw [notify_of_not_waiting busy]
      exact ⟨past, stopped⟩

private theorem perform_returned (enabled : event.Enabled log) (performed : log.perform event = .ok next)
    (finished : log.stopper = .returned → log.backend = .finished) :
    next.stopper = .returned → next.backend = .finished := by
  intro returned
  cases event with
  | append message =>
      obtain ⟨_, stopper, _, _, same | woken⟩ := append_frame performed
      · exact same.trans (finished (stopper.symm.trans returned))
      · rw [finished (stopper.symm.trans returned)] at woken
        cases woken.1
  | backend =>
      have still := (threadFunc_cases performed).stopper
      exact absurd (finished (still.symm.trans returned)) enabled.2.2
  | start =>
      cases performed
      have unstarted : log.backend = .unstarted := enabled
      rw [finished returned] at unstarted
      cases unstarted
  | spuriousWakeup =>
      cases performed
      have waiting : log.backend = .waiting := enabled
      rw [finished returned] at waiting
      cases waiting
  | stopStore | stopNotify =>
      cases performed
      cases returned
  | stopJoin =>
      cases performed
      exact enabled.2

/-- A run on from a state in which `stop()` is called, under an invariant of the
steps that may follow. -/
theorem run_keeps (invariant : AsyncLogging → Prop) {start final : AsyncLogging} {events : List Event}
    (sound : start.Sound) (initial : invariant start)
    (keeps : ∀ log event next, log.Sound → invariant log → event.Enabled log →
      log.perform event = .ok next → next.stream = log.stream ++ event.kept → invariant next)
    (ran : run step start events = some final) : invariant final := by
  refine (run_preserves (fun log => log.Sound ∧ invariant log) ⟨sound, initial⟩ ?_ ran).2
  rintro log event next ⟨logSound, holds⟩ stepped
  obtain ⟨enabled, performed⟩ := step_eq_some_iff.mp stepped
  obtain ⟨nextSound, added⟩ := perform_kept logSound enabled performed
  exact ⟨nextSound, keeps log event next logSound holds enabled performed added⟩

section Runs

variable {start final : AsyncLogging} {events : List Event}

private theorem run_past (sound : start.Sound) (past : start.Past) (stopped : start.running = false)
    (ran : run step start events = some final) : final.taken = start.taken := by
  refine (run_keeps (fun log => (log.Past ∧ log.running = false) ∧ log.taken = start.taken)
    sound ⟨⟨past, stopped⟩, rfl⟩ ?_ ran).2
  rintro log event next logSound ⟨⟨isPast, isStopped⟩, same⟩ enabled performed _
  refine ⟨perform_past isPast isStopped enabled performed, ?_⟩
  rcases perform_taken logSound enabled performed with kept | swapped
  · exact kept.trans same
  · simp [Past, swapped.1] at isPast

private theorem taken_prefix_stream (log : AsyncLogging) : log.taken <+: log.stream := by
  rw [stream_eq_taken]
  exact List.prefix_append _ _

/-- Bytes that are taken stay so; bytes that a waiting thread has still to take
are all in its next swap. -/
theorem run_saves {bytes : Bytes} (sound : start.Sound)
    (saved : bytes <+: start.taken ∨
      (start.backend = .locking ∨ start.backend = .waiting) ∧ bytes <+: start.stream)
    (ran : run step start events = some final) :
    bytes <+: final.taken ∨
      (final.backend = .locking ∨ final.backend = .waiting) ∧ bytes <+: final.stream := by
  refine run_keeps (fun log => bytes <+: log.taken ∨
    (log.backend = .locking ∨ log.backend = .waiting) ∧ bytes <+: log.stream) sound saved ?_ ran
  rintro log event next logSound (inTaken | ⟨waits, inStream⟩) enabled performed added
  · rcases perform_taken logSound enabled performed with same | swapped
    · exact .inl (same ▸ inTaken)
    · exact .inl (swapped.2 ▸ inTaken.trans log.taken_prefix_stream)
  · rcases perform_waits logSound enabled waits performed with still | all
    · exact .inr ⟨still, inStream.trans (added ▸ List.prefix_append _ _)⟩
    · exact .inl (all ▸ inStream)

private theorem run_returned (sound : start.Sound) (fresh : start.stopper = .stored)
    (ran : run step start events = some final) (returned : final.stopper = .returned) :
    final.backend = .finished := by
  refine run_keeps (fun log => log.stopper = .returned → log.backend = .finished)
    sound ?_ ?_ ran returned
  · intro other
    rw [fresh] at other
    cases other
  · exact fun log event next _ holds enabled performed _ => perform_returned enabled performed holds

end Runs

private theorem Drains.saves (drains : log.Drains) : log.stream <+: log.taken ∨
    (log.backend = .locking ∨ log.backend = .waiting) ∧ log.stream <+: log.stream := by
  rcases drains with locking | waiting | nothing
  · exact .inr ⟨.inl locking, List.prefix_rfl⟩
  · exact .inr ⟨.inr waiting, List.prefix_rfl⟩
  · rw [stream_eq_taken, nothing, List.append_nil]
    exact .inl List.prefix_rfl

/-- The state in which `stop()` has stored `running_`. -/
def storeStopped (log : AsyncLogging) : AsyncLogging := { log with running := false, stopper := .stored }

private theorem step_stopStore (enabled : Event.stopStore.Enabled log) :
    step log .stopStore = some log.storeStopped := step_eq_some_iff.mpr ⟨enabled, rfl⟩

/-- If `stop()` returns, everything that the log held when it was called is in
the file exactly when the thread had then still to take its buffers, or nothing
was left in the queue and in the current buffer. -/
theorem saved_iff_drains {called final : AsyncLogging} {after : List Event} (sound : called.Sound)
    (enabled : Event.stopStore.Enabled called) (ran : run step called (.stopStore :: after) = some final)
    (returned : final.stopper = .returned) : called.stream <+: final.written ↔ called.Drains := by
  have storedSound : called.storeStopped.Sound := (perform_kept sound enabled rfl).1
  have storedTaken : called.storeStopped.taken = called.taken := rfl
  rw [run_cons, step_stopStore enabled, Option.bind_some] at ran
  have finished := run_returned storedSound rfl ran returned
  rw [← taken_of_idle final (by simp [finished])]
  constructor
  · intro saved
    by_contra undrained
    simp only [Drains, not_or] at undrained
    obtain ⟨notLocking, notWaiting, left⟩ := undrained
    have past : called.storeStopped.Past := by
      obtain ⟨-, started, entered⟩ := enabled
      unfold Past storeStopped
      cases backend : called.backend <;> simp_all
    rw [run_past storedSound past rfl ran, storedTaken, stream_eq_taken] at saved
    have lengths := saved.length_le
    rw [List.length_append] at lengths
    exact left (List.eq_nil_of_length_eq_zero (by omega))
  · intro drains
    rcases run_saves storedSound drains.saves ran with saved | ⟨waits, -⟩
    · exact saved
    · simp [finished] at waits

def Event.isAppend : Event → Bool
  | .append _ => true
  | _ => false

/-- What keeps a logger that is being stopped out of its wait: the thread is
past it, or finds a buffer there. -/
def Escapes (log : AsyncLogging) : Prop :=
  log.running = false ∧ (log.Past ∨ (log.backend = .locking ∧ log.buffers ≠ []))

private theorem Escapes.not_waiting (escapes : log.Escapes) : log.backend ≠ .waiting := by
  rcases escapes.2 with past | ⟨locking, -⟩
  · exact past.not_waiting
  · simp [locking]

theorem Escapes.perform (escapes : log.Escapes) (enabled : event.Enabled log) (silent : event.isAppend = false)
    (performed : log.perform event = .ok next) : next.Escapes := by
  obtain ⟨stopped, past | ⟨locking, queued⟩⟩ := escapes
  · obtain ⟨nextPast, nextStopped⟩ := perform_past past stopped enabled performed
    exact ⟨nextStopped, .inl nextPast⟩
  · cases event with
    | append message => cases silent
    | backend =>
        cases threadFunc_cases performed with
        | rests => exact ⟨stopped, .inr ⟨locking, queued⟩⟩
        | waits _ idle => exact absurd idle queued
        | swaps =>
            unfold replaceSpare
            split_ifs <;> exact ⟨stopped, .inl trivial⟩
        | enters backend | locks backend | leaves backend | writes backend | recycles _ _ backend =>
            simp [locking] at backend
    | start =>
        have unstarted : log.backend = .unstarted := enabled
        simp [locking] at unstarted
    | spuriousWakeup =>
        have waiting : log.backend = .waiting := enabled
        simp [locking] at waiting
    | stopStore =>
        cases performed
        exact ⟨rfl, .inr ⟨locking, queued⟩⟩
    | stopJoin =>
        cases performed
        exact ⟨stopped, .inr ⟨locking, queued⟩⟩
    | stopNotify =>
        cases performed
        rw [notify_of_not_waiting (by simp [locking])]
        exact ⟨stopped, .inr ⟨locking, queued⟩⟩

/-- So many steps the thread has at most to go, once `running_` is cleared and it
does not wait any more. -/
private def toGo (log : AsyncLogging) : Nat :=
  match log.backend with
  | .locking => log.buffers.length + 4
  | .writing index => log.buffersToWrite.length - index + 2
  | .loopHead => 1
  | .unstarted | .entered | .waiting | .finished => 0

private theorem ThreadStep.toGo_lt (stepped : ThreadStep log next) (escapes : log.Escapes)
    (unfinished : log.backend ≠ .finished) : next.toGo < log.toGo := by
  obtain ⟨stopped, away⟩ := escapes
  cases stepped with
  | rests resting =>
      rcases resting with backend | backend | backend
      · simp [Past, backend] at away
      · simp [Past, backend] at away
      · exact absurd backend unfinished
  | enters backend => simp [Past, backend] at away
  | locks _ running => simp [running] at stopped
  | leaves backend => simp [toGo, backend]
  | waits backend idle => simp [Past, backend, idle] at away
  | swaps backend =>
      have swapped : log.takeBuffers.replaceSpare.toGo = log.buffers.length + 3 := by
        unfold replaceSpare
        split_ifs <;> simp [toGo, takeBuffers]
      rw [swapped]
      simp [toGo, backend]
  | writes backend selected =>
      obtain ⟨inside, -⟩ := List.getElem?_eq_some_iff.mp selected
      simp only [toGo, backend]
      omega
  | recycles _ _ backend =>
      simp only [toGo, backend]
      omega

/-- A thread that is past its wait finishes by its own steps. -/
theorem exists_finished (sound : log.Sound) (escapes : log.Escapes) (stored : log.stopper = .stored) :
    ∃ events final, (∀ event ∈ events, event = Event.backend) ∧ run step log events = some final ∧
      final.backend = .finished ∧ final.stopper = .stored := by
  have progress : ∀ log : AsyncLogging, log.Sound ∧ log.Escapes ∧ log.stopper = .stored → ¬ log.backend = .finished →
      ∃ event next, event = Event.backend ∧ step log event = some next ∧
        (next.Sound ∧ next.Escapes ∧ next.stopper = .stored) ∧ next.toGo < log.toGo := by
    rintro log ⟨logSound, logEscapes, logStored⟩ unfinished
    obtain ⟨next, stepped, nextSound, _⟩ := threadFunc_spec logSound
    have started : log.backend ≠ .unstarted := by
      intro unstarted
      obtain ⟨_, past | ⟨locking, _⟩⟩ := logEscapes
      · simp [Past, unstarted] at past
      · simp [unstarted] at locking
    have able : Event.backend.Enabled log := ⟨started, logEscapes.not_waiting, unfinished⟩
    have thread := threadFunc_cases stepped
    exact ⟨.backend, next, rfl, step_eq_some_iff.mpr ⟨able, stepped⟩,
      ⟨nextSound, logEscapes.perform able rfl stepped, thread.stopper.trans logStored⟩,
      thread.toGo_lt logEscapes unfinished⟩
  obtain ⟨events, final, alone, _, ran, ⟨_, _, stopper⟩, finished⟩ :=
    exists_run_of_progress _ _ _ toGo progress log ⟨sound, escapes, stored⟩
  exact ⟨events, final, alone, ran, finished, stopper⟩

/-- A record that every buffer is too short for. -/
private def oversized : Bytes := List.replicate SmallBuffer 0

private theorem length_oversized : oversized.length = SmallBuffer := List.length_replicate

/-- An oversized record is dropped, but the current buffer is queued and the
thread woken. -/
theorem exists_oversized (sound : log.Sound) (stopped : log.running = false) (started : log.backend ≠ .unstarted)
    (entered : log.backend ≠ .entered) :
    ∃ next, step log (.append oversized) = some next ∧ next.Sound ∧ next.stream = log.stream ∧
      next.Escapes ∧ next.stopper = log.stopper := by
  have small : oversized.length < 2 ^ 31 := by
    rw [length_oversized]
    decide
  obtain ⟨next, appended⟩ := append_total sound small
  obtain ⟨nextSound, added⟩ := sound.append appended
  have nothing : (Event.append oversized).kept = [] :=
    if_neg fun short : oversized.length < SmallBuffer => absurd length_oversized short.ne
  rw [nothing, List.append_nil] at added
  obtain ⟨running, stopper, _⟩ := append_frame appended
  refine ⟨next, step_eq_some_iff.mpr ⟨trivial, appended⟩, nextSound, added, ⟨running.trans stopped, ?_⟩, stopper⟩
  obtain ⟨current, filled, _, ⟨room, _, _⟩ | ⟨_, _, rfl⟩⟩ := append_cases appended
  · rw [FixedBuffer.avail, length_oversized] at room
    omega
  · unfold notify
    split_ifs with waiting
    · exact .inr ⟨rfl, by simp⟩
    · cases backend : log.backend with
      | unstarted => exact absurd backend started
      | entered => exact absurd backend entered
      | waiting => exact absurd backend waiting
      | locking => exact .inr ⟨rfl, by simp⟩
      | loopHead | writing index | finished => exact .inl trivial

/-- Whatever state `stop()` is called in, it can return with nothing more logged. -/
theorem exists_returned (sound : log.Sound) (enabled : Event.stopStore.Enabled log) :
    ∃ after final, run step log (.stopStore :: after) = some final ∧ final.stopper = .returned ∧
      final.stream = log.stream := by
  have storedSound : log.storeStopped.Sound := (perform_kept sound enabled rfl).1
  obtain ⟨next, stepped, nextSound, kept, escapes, stopper⟩ :=
    exists_oversized storedSound rfl enabled.2.1 enabled.2.2
  obtain ⟨events, finished, alone, ran, backend, stored⟩ := exists_finished nextSound escapes stopper
  obtain ⟨finishedSound, shown⟩ := run_kept nextSound ran
  have silent : events.flatMap Event.kept = [] := by
    refine List.flatMap_eq_nil_iff.mpr fun event member => ?_
    rw [alone event member]
    rfl
  have busy : finished.backend ≠ .waiting := by simp [backend]
  have notified : step finished .stopNotify = some { finished with stopper := .joining } := by
    refine step_eq_some_iff.mpr ⟨stored, ?_⟩
    simp only [perform, notify_of_not_waiting busy]
    rfl
  have joined : step { finished with stopper := .joining } .stopJoin = some { finished with stopper := .returned } :=
    step_eq_some_iff.mpr ⟨⟨rfl, backend⟩, rfl⟩
  refine ⟨.append oversized :: (events ++ [.stopNotify, .stopJoin]), { finished with stopper := .returned }, ?_, rfl, ?_⟩
  · rw [run_cons, step_stopStore enabled, Option.bind_some, run_cons, stepped, Option.bind_some, run_append, ran,
      Option.bind_some, run_cons, notified, Option.bind_some, run_cons, joined]
    rfl
  · have same : ({ finished with stopper := .returned } : AsyncLogging).stream = finished.stream := rfl
    have storedSame : log.storeStopped.stream = log.stream := rfl
    rw [same, shown, silent, List.append_nil, kept, storedSame]

private theorem Event.length_kept_le (event : Event) : event.kept.length ≤ event.message.length := by
  unfold Event.kept
  split_ifs
  · exact le_rfl
  · exact Nat.zero_le _

private theorem Event.length_kept_lt {event : Event} (long : ¬ event.Short) : event.kept.length < event.message.length := by
  rw [Event.kept, if_neg long]
  cases event with
  | append message => exact lt_of_lt_of_le (by decide) (Nat.le_of_not_lt long)
  | start | backend | spuriousWakeup | stopStore | stopNotify | stopJoin => exact absurd trivial long

/-- A dropped record is missing from what the log holds. -/
theorem short_of_kept_all {events : List Event}
    (all : (events.flatMap Event.message).length ≤ (events.flatMap Event.kept).length) :
    ∀ event ∈ events, event.Short := by
  intro event member
  by_contra long
  have fewer : (events.map fun event => event.kept.length).sum < (events.map fun event => event.message.length).sum :=
    List.sum_lt_sum _ _ (fun other _ => other.length_kept_le) ⟨event, member, Event.length_kept_lt long⟩
  rw [List.length_flatMap, List.length_flatMap] at all
  exact absurd fewer (Nat.not_lt.mpr all)

private theorem flatMap_kept {events : List Event} (short : ∀ event ∈ events, event.Short) :
    events.flatMap Event.kept = events.flatMap Event.message :=
  List.flatMap_congr fun event member => Event.kept_of_short (short event member)

private theorem written_prefix_stream (log : AsyncLogging) : log.written <+: log.stream :=
  (List.prefix_append _ _).trans log.taken_prefix_stream

/-- However the run before it went, a call of `stop()` leaves everything appended
before it in the file, in every run in which it returns, exactly when no buffer
was too short for a record and the thread had then still to take its buffers, or
nothing was left in the queue and in the current buffer. If no buffer was too
short, the same is true of each run by itself. -/
theorem stop_drains_iff {before : List Event} {called : AsyncLogging}
    (reached : run step new before = some called) (enabled : Event.stopStore.Enabled called) :
    ((∀ after final, run step called (.stopStore :: after) = some final → final.stopper = .returned →
      before.flatMap Event.message <+: final.written) ↔
      called.Drains ∧ ∀ event ∈ before, event.Short) ∧
    ((∀ event ∈ before, event.Short) →
      ∀ after final, run step called (.stopStore :: after) = some final → final.stopper = .returned →
        (before.flatMap Event.message <+: final.written ↔ called.Drains)) := by
  obtain ⟨sound, held⟩ := run_kept new_sound reached
  have start : new.stream = [] := rfl
  rw [start, List.nil_append] at held
  have each : (∀ event ∈ before, event.Short) →
      ∀ after final, run step called (.stopStore :: after) = some final → final.stopper = .returned →
        (before.flatMap Event.message <+: final.written ↔ called.Drains) := by
    intro short after final ran returned
    rw [← flatMap_kept short, ← held]
    exact saved_iff_drains sound enabled ran returned
  refine ⟨⟨fun saves => ?_, fun both after final ran returned => ?_⟩, each⟩
  · obtain ⟨after, final, ran, returned, added⟩ := exists_returned sound enabled
    have saved := saves after final ran returned
    have short : ∀ event ∈ before, event.Short := by
      apply short_of_kept_all
      rw [← held, ← added]
      exact (saved.trans final.written_prefix_stream).length_le
    exact ⟨(each short after final ran returned).mp saved, short⟩
  · exact (each both.2 after final ran returned).mpr both.1

/-- The record appended while the thread waits for a full buffer is not in it
when `stop()` finds the thread there; a later record completes the buffer. -/
theorem stop_drains_iff_woken :
    let before : List Event := [.start, .backend, .backend, .backend, .append (List.replicate 3000 97)]
    let after : List Event := [.append (List.replicate 3000 98), .backend, .backend, .backend, .backend, .backend,
      .stopNotify, .stopJoin]
    ∃ called final, run step new before = some called ∧ run step called (.stopStore :: after) = some final ∧
      before.flatMap Event.message <+: final.written := by
  intro before after
  have stoppable : (run step new before).any
      (fun called => Event.stopStore.Enabled called ∧ called.Drains) = true := by decide +kernel
  have returns : ((run step new before).bind fun called => run step called (.stopStore :: after)).any
      (fun final => final.stopper = .returned) = true := by decide +kernel
  obtain ⟨called, reached, holds⟩ := (Option.any_eq_true _ _).mp stoppable
  obtain ⟨enabled, drains⟩ := of_decide_eq_true holds
  rw [reached, Option.bind_some] at returns
  obtain ⟨final, ran, returned⟩ := (Option.any_eq_true _ _).mp returns
  exact ⟨called, final, reached, ran, (stop_drains_iff reached enabled).1.mpr ⟨drains, by decide +kernel⟩
    after final ran (of_decide_eq_true returned)⟩

/-- A record that is appended to a running logger, and never written. -/
theorem stop_loses_record :
    let before : List Event := [.start, .backend, .append (ascii "a")]
    ∃ called final, run step new before = some called ∧
      run step called [.stopStore, .backend, .stopNotify, .stopJoin] = some final ∧
      final.stopper = .returned ∧ ¬ before.flatMap Event.message <+: final.written := by
  intro before
  have lost : ((run step new before).bind fun called =>
      run step called [.stopStore, .backend, .stopNotify, .stopJoin]).any
        (fun final => final.stopper = .returned ∧ ¬ before.flatMap Event.message <+: final.written) = true := by
    decide +kernel
  obtain ⟨final, both, loses⟩ := (Option.any_eq_true _ _).mp lost
  obtain ⟨called, reached, ran⟩ := Option.bind_eq_some_iff.mp both
  exact ⟨called, final, reached, ran, of_decide_eq_true loses⟩

private theorem notify_not_waiting (log : AsyncLogging) : log.notify.backend ≠ .waiting := by
  unfold notify
  split_ifs with waiting
  · simp
  · exact waiting

private theorem append_waiting {message : Bytes} (appended : log.append message = .ok next)
    (waiting : next.backend = .waiting) : log.backend = .waiting ∧ next.buffers = log.buffers := by
  obtain ⟨current, filled, _, ⟨_, _, rfl⟩ | ⟨_, _, rfl⟩⟩ := append_cases appended
  · exact ⟨waiting, rfl⟩
  · exact absurd waiting (notify_not_waiting _)

theorem perform_waits_idle (idle : log.backend = .waiting → log.buffers = [])
    (performed : log.perform event = .ok next) : next.backend = .waiting → next.buffers = [] := by
  intro waiting
  cases event with
  | append message =>
      obtain ⟨before, same⟩ := append_waiting performed waiting
      exact same.trans (idle before)
  | backend =>
      cases threadFunc_cases performed with
      | rests => exact idle waiting
      | waits _ nothing => exact nothing
      | swaps =>
          revert waiting
          unfold replaceSpare
          split_ifs <;> simp [takeBuffers]
      | enters | locks | leaves | writes | recycles => cases waiting
  | start | spuriousWakeup =>
      cases performed
      cases waiting
  | stopStore | stopJoin =>
      cases performed
      exact idle waiting
  | stopNotify =>
      cases performed
      exact absurd waiting (notify_not_waiting log)

/-- `stop()` is blocked in its join, and the thread in a wait that nobody ends. -/
def Deadlocked (log : AsyncLogging) : Prop :=
  log.stopper = .joining ∧ log.backend = .waiting ∧ log.buffers = []

instance decidableDeadlocked (log : AsyncLogging) : Decidable log.Deadlocked :=
  inferInstanceAs (Decidable (log.stopper = .joining ∧ log.backend = .waiting ∧ log.buffers = []))

/-- The thread is about to wait for a full buffer, or does so already. -/
def AwaitsBuffer (log : AsyncLogging) : Prop :=
  (log.backend = .locking ∨ log.backend = .waiting) ∧ log.buffers = []

instance decidableAwaitsBuffer (log : AsyncLogging) : Decidable log.AwaitsBuffer :=
  inferInstanceAs (Decidable ((log.backend = .locking ∨ log.backend = .waiting) ∧ log.buffers = []))

private theorem step_waits (log : AsyncLogging) (locking : log.backend = .locking) (idle : log.buffers = []) :
    step log .backend = some { log with backend := .waiting } := by
  refine step_eq_some_iff.mpr ⟨by simp [Event.Enabled, locking], ?_⟩
  simp only [perform, threadFunc, locking, swapBuffers, if_pos idle]
  rfl

private theorem step_notified (log : AsyncLogging) (waiting : log.backend = .waiting) (stored : log.stopper = .stored) :
    step log .stopNotify = some { log with backend := .locking, stopper := .joining } := by
  refine step_eq_some_iff.mpr ⟨stored, ?_⟩
  simp only [perform, notify, if_pos waiting]
  rfl

/-- `stop()` wakes the thread, which finds no buffer and waits again. -/
theorem run_deadlocked (log : AsyncLogging) (waiting : log.backend = .waiting) (stored : log.stopper = .stored)
    (idle : log.buffers = []) :
    ∃ final, run step log [.stopNotify, .backend] = some final ∧ final.Deadlocked := by
  have again := step_waits { log with backend := .locking, stopper := .joining } rfl idle
  refine ⟨{ log with backend := .waiting, stopper := .joining }, ?_, rfl, rfl, idle⟩
  rw [run_cons, step_notified log waiting stored, Option.bind_some, run_cons, again]
  rfl

/-- However the run before it went, a call of `stop()` after which nothing is
appended can end in a deadlock exactly when it finds the thread in its wait, or
on the way into it, with no full buffer there. -/
theorem never_deadlocked_iff {before : List Event} {called : AsyncLogging}
    (reached : run step new before = some called) (enabled : Event.stopStore.Enabled called) :
    (∀ after final, (∀ event ∈ after, event.isAppend = false) →
      run step called (.stopStore :: after) = some final → ¬ final.Deadlocked) ↔ ¬ called.AwaitsBuffer := by
  have stored : step called .stopStore = some { called with running := false, stopper := .stored } :=
    step_stopStore enabled
  constructor
  · rintro safe ⟨locking | waiting, idle⟩
    · obtain ⟨final, ran, deadlocked⟩ := run_deadlocked
        { called with running := false, stopper := .stored, backend := .waiting } rfl rfl idle
      refine safe [.backend, .stopNotify, .backend] final (by decide) ?_ deadlocked
      have waits := step_waits { called with running := false, stopper := .stored } locking idle
      rw [run_cons, stored, Option.bind_some, run_cons, waits]
      exact ran
    · obtain ⟨final, ran, deadlocked⟩ := run_deadlocked
        { called with running := false, stopper := .stored } waiting rfl idle
      refine safe [.stopNotify, .backend] final (by decide) ?_ deadlocked
      rw [run_cons, stored]
      exact ran
  · intro apart after final silent ran deadlocked
    have waitsIdle := run_preserves (fun log => log.backend = .waiting → log.buffers = [])
      (fun _ => rfl) (fun log event next idle stepped => perform_waits_idle idle (step_eq_some_iff.mp stepped).2) reached
    have escapes : ({ called with running := false, stopper := .stored } : AsyncLogging).Escapes := by
      obtain ⟨-, started, entered⟩ := enabled
      refine ⟨rfl, ?_⟩
      simp only [AwaitsBuffer, not_and] at apart
      unfold Past
      cases backend : called.backend with
      | unstarted => exact absurd backend started
      | entered => exact absurd backend entered
      | loopHead | writing index | finished => exact .inl trivial
      | locking => exact .inr ⟨rfl, apart (.inl backend)⟩
      | waiting => exact absurd (waitsIdle backend) (apart (.inr backend))
    rw [run_cons, stored, Option.bind_some] at ran
    have ended := run_preserves_of_mem Escapes escapes (fun log event member next holds stepped => by
      obtain ⟨isEnabled, performed⟩ := step_eq_some_iff.mp stepped
      exact holds.perform isEnabled (silent event member) performed) ran
    exact ended.not_waiting deadlocked.2.1

theorem never_deadlocked_iff_loopHead :
    ∃ called, run step new [.start, .backend] = some called ∧
      ∀ after final, (∀ event ∈ after, event.isAppend = false) →
        run step called (.stopStore :: after) = some final → ¬ final.Deadlocked := by
  have stoppable : (run step new [.start, .backend]).any
      (fun called => Event.stopStore.Enabled called ∧ ¬ called.AwaitsBuffer) = true := by decide +kernel
  obtain ⟨called, reached, holds⟩ := (Option.any_eq_true _ _).mp stoppable
  obtain ⟨enabled, apart⟩ := of_decide_eq_true holds
  exact ⟨called, reached, (never_deadlocked_iff reached enabled).mpr apart⟩

/-- `stop()` on an idle logger: its notification wakes the thread into the same wait. -/
theorem stop_deadlocks :
    ∃ final, run step new [.start, .backend, .backend, .backend, .stopStore, .stopNotify, .backend] = some final ∧
      final.Deadlocked := by
  have deadlocks : (run step new
      [.start, .backend, .backend, .backend, .stopStore, .stopNotify, .backend]).any
        (fun final => final.Deadlocked) = true := by
    decide +kernel
  obtain ⟨final, ran, blocked⟩ := (Option.any_eq_true _ _).mp deadlocks
  exact ⟨final, ran, of_decide_eq_true blocked⟩

end AsyncLogging

end NutServer.Base
