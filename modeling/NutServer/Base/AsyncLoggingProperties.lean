import NutServer.Base.AsyncLogging
import NutServer.Library.Machine

/-! No record is lost, repeated or reordered on its way through the buffers. The
buffers that change hands between the threads are empty when they are filled
again, and a record that does not fit opens an empty one. -/

set_option autoImplicit false

namespace NutServer.Base

open Library

namespace AsyncLogging

def contents : UBufferPtr → Bytes
  | some buffer => buffer.data
  | none => []

def held (pointers : List UBufferPtr) : Bytes := pointers.flatMap contents

def unwritten (log : AsyncLogging) : List UBufferPtr :=
  match log.backend with
  | .writing index => log.buffersToWrite.drop index
  | _ => []

/-- All bytes from the file to the buffer being filled. -/
def stream (log : AsyncLogging) : Bytes :=
  log.written ++ held log.unwritten ++ held log.buffers ++ contents log.currentBuffer

/-- What the locals of `threadFunc` hold at each of its steps. -/
def Locals (log : AsyncLogging) : Prop :=
  match log.backend with
  | .unstarted | .finished => True
  | .entered => log.running = true
  | .loopHead | .locking | .waiting =>
      isFresh log.newBuffer1 = true ∧ isFresh log.newBuffer2 = true ∧ log.buffersToWrite = []
  | .writing _ =>
      log.newBuffer1 = none ∧ (log.newBuffer2 = none ∨ isFresh log.newBuffer2 = true) ∧
        2 ≤ log.buffersToWrite.length ∧ none ∉ log.buffersToWrite

/-- The pointers that are followed are not null, and the spare buffer is empty. -/
structure Sound (log : AsyncLogging) : Prop where
  current : log.currentBuffer ≠ none
  spare : ∀ buffer, log.nextBuffer = some buffer → buffer.data = []
  queued : none ∉ log.buffers
  locals : log.Locals

variable {log : AsyncLogging}

@[simp] theorem held_nil : held [] = [] := rfl

@[simp] theorem held_append {first second : List UBufferPtr} :
    held (first ++ second) = held first ++ held second := List.flatMap_append

@[simp] theorem held_cons {pointer : UBufferPtr} {rest : List UBufferPtr} :
    held (pointer :: rest) = contents pointer ++ held rest := rfl

theorem exists_of_isFresh {pointer : UBufferPtr} (fresh : isFresh pointer = true) :
    ∃ buffer, pointer = some buffer ∧ buffer.data = [] := by
  cases pointer with
  | none => cases fresh
  | some buffer =>
      exact ⟨buffer, rfl, List.eq_nil_of_length_eq_zero (of_decide_eq_true fresh)⟩

theorem new_sound : new.Sound :=
  ⟨nofun, fun _ same => Option.some.inj same ▸ rfl, List.not_mem_nil, trivial⟩

theorem Sound.notify (sound : log.Sound) : log.notify.Sound ∧ log.notify.stream = log.stream := by
  unfold AsyncLogging.notify
  split_ifs with waiting
  · have locals := sound.locals
    simp only [Locals, waiting] at locals
    exact ⟨⟨sound.current, sound.spare, sound.queued, locals⟩, by simp [stream, unwritten, waiting]⟩
  · exact ⟨sound, rfl⟩

/-- A full buffer is queued, and another one takes its place. -/
theorem Sound.queueCurrent (sound : log.Sound) (filled : Buffer) :
    let queued : AsyncLogging := { log with
      buffers := log.buffers ++ [log.currentBuffer]
      nextBuffer := none
      currentBuffer := some filled }
    queued.notify.Sound ∧ queued.notify.stream = log.stream ++ filled.data := by
  intro queued
  have queuedSound : queued.Sound := by
    refine ⟨Option.some_ne_none filled, nofun, ?_, sound.locals⟩
    simp only [queued, List.mem_append, List.mem_singleton, not_or]
    exact ⟨sound.queued, sound.current.symm⟩
  obtain ⟨nextSound, kept⟩ := queuedSound.notify
  refine ⟨nextSound, ?_⟩
  rw [kept]
  simp [stream, unwritten, queued, contents]

private theorem Sound.spare_empty (sound : log.Sound) : (log.nextBuffer.getD .new).data = [] := by
  cases spare : log.nextBuffer with
  | none => rfl
  | some buffer => exact sound.spare buffer spare

private theorem appendToNext_spec (sound : log.Sound) {message : Bytes} (short : message.length < SmallBuffer) :
    ∃ next, log.appendToNext message = .ok next ∧ next.Sound ∧ next.stream = log.stream ++ message := by
  have empty := sound.spare_empty
  have opens : (message.length : Int) < (log.nextBuffer.getD .new).avail := by
    rw [FixedBuffer.avail, empty, List.length_nil]
    omega
  obtain ⟨filled, appended, data⟩ := FixedBuffer.append_spec (short.trans (by decide)) opens
  obtain ⟨nextSound, shown⟩ := sound.queueCurrent filled
  rw [appendToNext, appended]
  refine ⟨_, rfl, nextSound, ?_⟩
  rw [shown, data, empty, List.nil_append]

theorem append_spec (sound : log.Sound) {message : Bytes} (short : message.length < SmallBuffer) :
    ∃ next, log.append message = .ok next ∧ next.Sound ∧ next.stream = log.stream ++ message := by
  obtain ⟨current, isCurrent⟩ := Option.ne_none_iff_exists'.mp sound.current
  rw [append, isCurrent, deref, Outcome.ok_bind]
  split_ifs with room
  · obtain ⟨filled, appended, data⟩ := FixedBuffer.append_spec (short.trans (by decide)) room
    rw [appended]
    refine ⟨{ log with currentBuffer := some filled }, rfl,
      ⟨nofun, sound.spare, sound.queued, sound.locals⟩, ?_⟩
    simp [stream, unwritten, isCurrent, contents, data]
  · exact appendToNext_spec sound short

theorem Sound.takeBuffers (sound : log.Sound) (locking : log.backend = .locking)
    (queued : log.buffers ≠ []) :
    log.takeBuffers.Sound ∧ log.takeBuffers.stream = log.stream := by
  have locals := sound.locals
  simp only [Locals, locking] at locals
  obtain ⟨fresh1, fresh2, nothing⟩ := locals
  obtain ⟨buffer1, isBuffer1, empty1⟩ := exists_of_isFresh fresh1
  have positive := List.length_pos_iff.mpr queued
  refine ⟨⟨?_, sound.spare, ?_, rfl, .inr fresh2, ?_, ?_⟩, ?_⟩
  · simp [AsyncLogging.takeBuffers, isBuffer1]
  · simp [AsyncLogging.takeBuffers, nothing]
  · simp only [AsyncLogging.takeBuffers, List.length_append, List.length_singleton]
    omega
  · simp only [AsyncLogging.takeBuffers, List.mem_append, List.mem_singleton, not_or]
    exact ⟨sound.queued, sound.current.symm⟩
  · simp [stream, unwritten, AsyncLogging.takeBuffers, locking, nothing, isBuffer1, contents, empty1]

theorem Sound.replaceSpare (sound : log.Sound) {index : Nat} (writing : log.backend = .writing index) :
    log.replaceSpare.Sound ∧ log.replaceSpare.stream = log.stream ∧
      log.replaceSpare.buffersToWrite = log.buffersToWrite := by
  have locals := sound.locals
  simp only [Locals, writing] at locals
  obtain ⟨moved, fresh2, two, valid⟩ := locals
  unfold AsyncLogging.replaceSpare
  split_ifs with none
  · refine ⟨⟨sound.current, ?_, sound.queued, ?_⟩, rfl, rfl⟩
    · intro buffer same
      have fresh := fresh2.resolve_left fun null => nomatch null.symm.trans same
      obtain ⟨other, isOther, empty⟩ := exists_of_isFresh fresh
      cases isOther.symm.trans same
      exact empty
    · simp only [Locals, writing]
      exact ⟨moved, .inl trivial, two, valid⟩
  · exact ⟨sound, rfl, rfl⟩

/-- The critical section hands all buffers to the write loop. -/
theorem swapBuffers_spec (sound : log.Sound) (locking : log.backend = .locking) :
    ∃ next, log.swapBuffers = .ok next ∧ next.Sound ∧ next.stream = log.stream := by
  rw [swapBuffers]
  by_cases idle : log.buffers = []
  · have locals := sound.locals
    simp only [Locals, locking] at locals
    rw [if_pos idle]
    exact ⟨{ log with backend := .waiting }, rfl, ⟨sound.current, sound.spare, sound.queued, locals⟩,
      by simp [stream, unwritten, locking]⟩
  · obtain ⟨takenSound, takenStream⟩ := sound.takeBuffers locking idle
    obtain ⟨nextSound, nextStream, same⟩ := takenSound.replaceSpare rfl
    have some : log.takeBuffers.replaceSpare.buffersToWrite ≠ [] := by
      rw [same]
      simp [AsyncLogging.takeBuffers]
    rw [if_neg idle]
    refine ⟨log.takeBuffers.replaceSpare, ?_, nextSound, nextStream.trans takenStream⟩
    simp only [assert_of some]
    rfl

/-- A refill takes a written buffer, which the write loop has left behind. -/
theorem refill_spec {newBuffer : UBufferPtr} {kept : List UBufferPtr}
    (fresh : newBuffer = none ∨ isFresh newBuffer = true) (some : kept ≠ []) (valid : none ∉ kept) :
    ∃ buffer rest, refill newBuffer kept = .ok (buffer, rest) ∧ isFresh buffer = true ∧
      none ∉ rest ∧ kept.length ≤ rest.length + 1 := by
  cases newBuffer with
  | some buffer =>
      exact ⟨_, _, rfl, fresh.resolve_left nofun, valid, Nat.le_succ _⟩
  | none =>
      obtain ⟨init, last, rfl⟩ := List.eq_nil_or_concat kept |>.resolve_left some
      simp only [List.concat_eq_append, List.mem_append, List.mem_singleton, not_or] at valid some ⊢
      obtain ⟨buffer, isLast⟩ := Option.ne_none_iff_exists'.mp (Ne.symm valid.2)
      refine ⟨Option.some .new, init, ?_, rfl, valid.1, by simp⟩
      rw [refill, assert_of some, Outcome.ok_bind]
      simp [isLast, deref, FixedBuffer.reset, pure, Except.pure]

private theorem recycle_spec (sound : log.Sound) {index : Nat} (writing : log.backend = .writing index)
    (all : log.buffersToWrite.length ≤ index) :
    ∃ next, log.recycle = .ok next ∧ next.Sound ∧ next.stream = log.stream := by
  have locals := sound.locals
  simp only [Locals, writing] at locals
  obtain ⟨moved, fresh2, two, valid⟩ := locals
  let kept := if 2 < log.buffersToWrite.length then log.buffersToWrite.take 2 else log.buffersToWrite
  have keptTwo : kept.length = 2 := by
    simp only [kept]
    split_ifs
    · rw [List.length_take]
      omega
    · omega
  have keptValid : none ∉ kept := by
    simp only [kept]
    split_ifs
    · exact fun member => valid (List.mem_of_mem_take member)
    · exact valid
  obtain ⟨buffer1, rest1, refilled1, isFresh1, valid1, size1⟩ := refill_spec (.inl moved)
    (List.ne_nil_of_length_pos (by omega)) keptValid
  obtain ⟨buffer2, rest2, refilled2, isFresh2, _⟩ := refill_spec fresh2
    (List.ne_nil_of_length_pos (by omega)) valid1
  refine ⟨{ log with newBuffer1 := buffer1, newBuffer2 := buffer2, buffersToWrite := [], backend := .loopHead },
    ?_, ⟨sound.current, sound.spare, sound.queued, isFresh1, isFresh2, rfl⟩, ?_⟩
  · simp only [recycle]
    rw [refilled1, Outcome.ok_bind, refilled2]
    rfl
  · have done : log.buffersToWrite.drop index = [] := List.drop_eq_nil_of_le all
    simp [stream, unwritten, writing, done]

theorem write_spec (sound : log.Sound) {index : Nat} (writing : log.backend = .writing index) :
    ∃ next, log.write index = .ok next ∧ next.Sound ∧ next.stream = log.stream := by
  have locals := sound.locals
  simp only [Locals, writing] at locals
  obtain ⟨moved, fresh2, two, valid⟩ := locals
  unfold write
  cases selected : log.buffersToWrite[index]? with
  | none => exact recycle_spec sound writing (List.getElem?_eq_none_iff.mp selected)
  | some pointer =>
      obtain ⟨inside, isPointer⟩ := List.getElem?_eq_some_iff.mp selected
      have notNull : pointer ≠ none := fun null =>
        valid (null ▸ isPointer ▸ List.getElem_mem inside)
      obtain ⟨buffer, rfl⟩ := Option.ne_none_iff_exists'.mp notNull
      refine ⟨{ log with written := log.written ++ buffer.data, backend := .writing (index + 1) }, rfl,
        ⟨sound.current, sound.spare, sound.queued, moved, fresh2, two, valid⟩, ?_⟩
      have rest := List.drop_eq_getElem_cons inside
      rw [isPointer] at rest
      simp [stream, unwritten, writing, rest, contents]

theorem threadFunc_spec (sound : log.Sound) :
    ∃ next, log.threadFunc = .ok next ∧ next.Sound ∧ next.stream = log.stream := by
  have locals := sound.locals
  cases backend : log.backend with
  | unstarted | waiting | finished => exact ⟨log, by rw [threadFunc, backend]; rfl, sound, rfl⟩
  | entered =>
      simp only [Locals, backend] at locals
      refine ⟨{ log with
        newBuffer1 := some .new
        newBuffer2 := some .new
        buffersToWrite := []
        backend := .loopHead }, ?_,
        ⟨sound.current, sound.spare, sound.queued, rfl, rfl, rfl⟩, by simp [stream, unwritten, backend]⟩
      rw [threadFunc, backend]
      simp only [enter, assert_of locals]
      rfl
  | loopHead =>
      simp only [Locals, backend] at locals
      obtain ⟨fresh1, fresh2, nothing⟩ := locals
      rw [threadFunc, backend]
      simp only [loopHead, assert_of fresh1, assert_of fresh2, assert_of nothing]
      split_ifs
      · exact ⟨{ log with backend := .locking }, rfl,
          ⟨sound.current, sound.spare, sound.queued, fresh1, fresh2, nothing⟩,
          by simp [stream, unwritten, backend]⟩
      · exact ⟨{ log with backend := .finished }, rfl,
          ⟨sound.current, sound.spare, sound.queued, trivial⟩, by simp [stream, unwritten, backend]⟩
  | locking =>
      rw [threadFunc, backend]
      exact swapBuffers_spec sound backend
  | writing index =>
      rw [threadFunc, backend]
      exact write_spec sound backend

def Event.message : Event → Bytes
  | .append message => message
  | _ => []

def Event.Short : Event → Prop
  | .append message => message.length < SmallBuffer
  | _ => True

instance decidableShort : ∀ event : Event, Decidable event.Short
  | .append message => inferInstanceAs (Decidable (message.length < SmallBuffer))
  | .start | .backend | .spuriousWakeup | .stopStore | .stopNotify | .stopJoin => isTrue trivial

theorem perform_spec (sound : log.Sound) {event : Event} (enabled : event.Enabled log)
    (short : event.Short) :
    ∃ next, log.perform event = .ok next ∧ next.Sound ∧ next.stream = log.stream ++ event.message := by
  have unchanged : ∀ {next : AsyncLogging}, next.stream = log.stream → next.stream = log.stream ++ [] :=
    fun same => same.trans (List.append_nil _).symm
  cases event with
  | append message => exact append_spec sound short
  | backend =>
      obtain ⟨next, stepped, nextSound, shown⟩ := threadFunc_spec sound
      exact ⟨next, stepped, nextSound, unchanged shown⟩
  | start =>
      have unstarted : log.backend = .unstarted := enabled
      exact ⟨{ log with running := true, backend := .entered }, rfl,
        ⟨sound.current, sound.spare, sound.queued, rfl⟩, unchanged (by simp [stream, unwritten, unstarted])⟩
  | spuriousWakeup =>
      have waiting : log.backend = .waiting := enabled
      have locals := sound.locals
      simp only [Locals, waiting] at locals
      exact ⟨{ log with backend := .locking }, rfl, ⟨sound.current, sound.spare, sound.queued, locals⟩,
        unchanged (by simp [stream, unwritten, waiting])⟩
  | stopStore =>
      refine ⟨{ log with running := false, stopper := .stored }, rfl,
        ⟨sound.current, sound.spare, sound.queued, ?_⟩, unchanged rfl⟩
      have locals := sound.locals
      have started := enabled.2.2
      unfold Locals at locals ⊢
      split <;> simp_all
  | stopNotify =>
      obtain ⟨notified, shown⟩ := sound.notify
      exact ⟨{ log.notify with stopper := .joining }, rfl,
        ⟨notified.current, notified.spare, notified.queued, notified.locals⟩, unchanged shown⟩
  | stopJoin =>
      exact ⟨{ log with stopper := .returned }, rfl,
        ⟨sound.current, sound.spare, sound.queued, sound.locals⟩, unchanged rfl⟩

theorem step_eq_some_iff {next : AsyncLogging} {event : Event} :
    step log event = some next ↔ event.Enabled log ∧ log.perform event = .ok next :=
  Outcome.ite_toOption_eq_some_iff

theorem append_cases {message : Bytes} {next : AsyncLogging} (appended : log.append message = .ok next) :
    ∃ current filled, log.currentBuffer = some current ∧
      (((message.length : Int) < current.avail ∧ current.append message = .ok filled ∧
        next = { log with currentBuffer := some filled }) ∨
      (current.avail ≤ message.length ∧ (log.nextBuffer.getD .new).append message = .ok filled ∧
        next = ({ log with
          buffers := log.buffers ++ [log.currentBuffer]
          nextBuffer := none
          currentBuffer := some filled } : AsyncLogging).notify)) := by
  unfold AsyncLogging.append at appended
  obtain ⟨current, held, appended⟩ := Outcome.bind_eq_ok_iff.mp appended
  have isCurrent : log.currentBuffer = some current := by
    cases pointer : log.currentBuffer with
    | none => simp [deref, pointer] at held
    | some buffer => simpa [deref, pointer] using held
  split_ifs at appended with room
  · obtain ⟨filled, copied, appended⟩ := Outcome.bind_eq_ok_iff.mp appended
    cases appended
    exact ⟨current, filled, isCurrent, .inl ⟨room, copied, rfl⟩⟩
  · obtain ⟨filled, copied, appended⟩ := Outcome.bind_eq_ok_iff.mp appended
    cases appended
    exact ⟨current, filled, isCurrent, .inr ⟨Int.not_lt.mp room, copied, rfl⟩⟩

/-- What a call of `append` leaves in the log: a record that no buffer holds is dropped. -/
def Event.kept (event : Event) : Bytes := if event.Short then event.message else []

theorem Event.kept_of_short {event : Event} (short : event.Short) : event.kept = event.message := if_pos short

theorem Sound.append (sound : log.Sound) {message : Bytes} {next : AsyncLogging}
    (appended : log.append message = .ok next) :
    next.Sound ∧ next.stream = log.stream ++ (Event.append message).kept := by
  by_cases short : message.length < SmallBuffer
  · obtain ⟨other, same, otherSound, shown⟩ := append_spec sound short
    cases appended.symm.trans same
    have kept : (Event.append message).kept = message := Event.kept_of_short short
    exact ⟨otherSound, shown.trans (by rw [kept])⟩
  · obtain ⟨current, filled, _, ⟨room, _, _⟩ | ⟨_, copied, rfl⟩⟩ := append_cases appended
    · rw [FixedBuffer.avail] at room
      omega
    · obtain ⟨nextSound, shown⟩ := sound.queueCurrent filled
      refine ⟨nextSound, shown.trans ?_⟩
      rw [FixedBuffer.append_empty (by decide) sound.spare_empty copied]
      rfl

theorem perform_kept (sound : log.Sound) {event : Event} {next : AsyncLogging} (enabled : event.Enabled log)
    (performed : log.perform event = .ok next) : next.Sound ∧ next.stream = log.stream ++ event.kept := by
  cases event with
  | append message => exact sound.append performed
  | start | backend | spuriousWakeup | stopStore | stopNotify | stopJoin =>
      obtain ⟨other, same, otherSound, shown⟩ := perform_spec sound enabled trivial
      cases performed.symm.trans same
      exact ⟨otherSound, shown⟩

theorem run_kept {events : List Event} {start final : AsyncLogging} (sound : start.Sound)
    (ran : run step start events = some final) :
    final.Sound ∧ final.stream = start.stream ++ events.flatMap Event.kept := by
  refine run_history (fun past log => log.Sound ∧ log.stream = start.stream ++ past.flatMap Event.kept)
    ⟨sound, by simp⟩ ?_ ran
  rintro past log event next ⟨logSound, shown⟩ stepped
  obtain ⟨enabled, performed⟩ := step_eq_some_iff.mp stepped
  obtain ⟨nextSound, added⟩ := perform_kept logSound enabled performed
  exact ⟨nextSound, by simp [added, shown]⟩

theorem sound_of_run {events : List Event} {final : AsyncLogging} (ran : run step new events = some final) :
    final.Sound := (run_kept new_sound ran).1

/-- However the calls of `append` interleave with the logging thread, no step
fails, and the bytes in the file, in the buffers still to be written, in the
queue and in the current buffer are the records in the order of their calls. -/
theorem log_in_order (events : List Event)
    (allowed : Along step (fun log event => event.Enabled log ∧ event.Short) new events) :
    ∃ final, run step new events = some final ∧
      final.written ++ held final.unwritten ++ held final.buffers ++ contents final.currentBuffer =
        events.flatMap Event.message := by
  have commutes : ∀ log event, log.Sound → event.Enabled log ∧ event.Short →
      ∃ next, step log event = some next ∧ next.Sound ∧ next.stream = log.stream ++ event.message := by
    rintro log event sound ⟨enabled, short⟩
    obtain ⟨next, performed, nextSound, shown⟩ := perform_spec sound enabled short
    exact ⟨next, step_eq_some_iff.mpr ⟨enabled, performed⟩, nextSound, shown⟩
  obtain ⟨final, ran, _, shown⟩ := run_refines Sound stream
    (fun logged event => logged ++ event.message) new_sound commutes allowed
  have start : new.stream = [] := rfl
  rw [start, ← List.flatMap_eq_foldl] at shown
  exact ⟨final, ran, shown⟩

/-- Two records of which the second opens the next buffer while the logging
thread waits, and a third one between its swap and its writing. -/
theorem log_in_order_swap :
    let first : Bytes := List.replicate 2100 97
    let second : Bytes := List.replicate 2100 98
    let third : Bytes := ascii "c"
    ∃ final, run step new [.start, .backend, .append first, .backend, .backend, .append second, .backend,
        .append third, .backend, .backend, .backend] = some final ∧
      final.written ++ held final.unwritten ++ held final.buffers ++ contents final.currentBuffer =
        first ++ second ++ third := by
  intro first second third
  obtain ⟨final, ran, shown⟩ := log_in_order [.start, .backend, .append first, .backend, .backend,
    .append second, .backend, .append third, .backend, .backend, .backend] (by decide +kernel)
  exact ⟨final, ran, shown.trans (by simp [Event.message])⟩

theorem append_total (sound : log.Sound) {message : Bytes} (small : message.length < 2 ^ 31) :
    ∃ next, log.append message = .ok next := by
  obtain ⟨current, isCurrent⟩ := Option.ne_none_iff_exists'.mp sound.current
  rw [AsyncLogging.append, isCurrent, deref, Outcome.ok_bind]
  split_ifs with room
  · obtain ⟨filled, appended⟩ := current.append_total small
    rw [appended]
    exact ⟨_, rfl⟩
  · obtain ⟨filled, appended⟩ := FixedBuffer.append_total (log.nextBuffer.getD .new) small
    rw [appendToNext, appended]
    exact ⟨_, rfl⟩

theorem perform_total (sound : log.Sound) {event : Event} (enabled : event.Enabled log)
    (small : event.message.length < 2 ^ 31) : ∃ next, log.perform event = .ok next ∧ next.Sound := by
  cases event with
  | append message =>
      obtain ⟨next, appended⟩ := append_total sound small
      exact ⟨next, appended, (sound.append appended).1⟩
  | start | backend | spuriousWakeup | stopStore | stopNotify | stopJoin =>
      obtain ⟨next, performed, nextSound, _⟩ := perform_spec sound enabled trivial
      exact ⟨next, performed, nextSound⟩

/-- Between any two steps the buffers that will be filled are there and empty,
and the two that a swap takes away are found again among the written ones. -/
theorem recycling_sound (events : List Event)
    (allowed : Along step (fun log event => event.Enabled log ∧ event.message.length < 2 ^ 31) new events) :
    ∃ final, run step new events = some final ∧
      (final.backend = .loopHead →
        isFresh final.newBuffer1 = true ∧ isFresh final.newBuffer2 = true ∧ final.buffersToWrite = []) ∧
      final.currentBuffer ≠ none ∧
      (∀ buffer, final.nextBuffer = some buffer → buffer.length = 0) ∧
      (∀ index, final.backend = .writing index →
        2 ≤ final.buffersToWrite.length ∧ none ∉ final.buffersToWrite) ∧
      ∀ event : Event, event.Enabled final → event.message.length < 2 ^ 31 →
        ∃ next, final.perform event = .ok next := by
  obtain ⟨final, ran, sound⟩ := run_total (fun _ log => log.Sound) new_sound
    (fun past log event sound guarded => by
      obtain ⟨next, performed, nextSound⟩ := perform_total sound guarded.1 guarded.2
      exact ⟨next, step_eq_some_iff.mpr ⟨guarded.1, performed⟩, nextSound⟩) allowed
  have locals := sound.locals
  refine ⟨final, ran, ?_, sound.current, ?_, ?_, ?_⟩
  · intro loopHead
    simpa only [Locals, loopHead] using locals
  · intro buffer spare
    rw [FixedBuffer.length, sound.spare buffer spare, List.length_nil]
  · intro index writing
    simp only [Locals, writing] at locals
    exact locals.2.2
  · intro event enabled small
    obtain ⟨next, performed, _⟩ := perform_total sound enabled small
    exact ⟨next, performed⟩

/-- A round of the loop in which a record takes the spare buffer after the swap. -/
theorem recycling_sound_round :
    let long : Bytes := List.replicate 2100 97
    let events : List Event := [.start, .backend, .append long, .append long, .backend, .backend, .append long,
      .append long, .backend, .backend, .backend]
    ∃ final, run step new events = some final ∧ final.backend = .loopHead ∧
      isFresh final.newBuffer1 = true ∧ isFresh final.newBuffer2 = true ∧ final.currentBuffer ≠ none := by
  intro long events
  obtain ⟨final, ran, loopHead, current, _⟩ := recycling_sound events (by decide +kernel)
  have goesRound : (run step new events).map (fun final => final.backend) = some .loopHead := by decide +kernel
  rw [ran, Option.map_some, Option.some.injEq] at goesRound
  obtain ⟨fresh1, fresh2, _⟩ := loopHead goesRound
  exact ⟨final, ran, goesRound, fresh1, fresh2, current⟩

end AsyncLogging

end NutServer.Base
