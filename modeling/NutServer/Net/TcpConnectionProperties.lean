import NutServer.Net.BufferProperties
import NutServer.Net.TcpConnection

/-! The two writing paths of a connection. What the kernel took, followed by
what waits in the output buffer, is what was sent; the channel asks for
writability exactly while something waits. -/

set_option autoImplicit false

namespace NutServer.Net

open Library

def Call.accepted : Call → Bytes
  | .write offered (.wrote count) => offered.take count
  | _ => []

/-- The calls by which bytes leave, and the changes of interest around them. -/
def Call.isOutput : Call → Bool
  | .write _ _ | .updateChannel _ => true
  | _ => false

def Call.isShutdown : Call → Bool
  | .shutdown _ => true
  | _ => false

namespace TcpConnection

/-- The bytes that the kernel took. -/
def wire (conn : TcpConnection) : Bytes := conn.calls.flatMap Call.accepted

/-- The accepted bytes and, behind them, those that still wait. -/
def stream (conn : TcpConnection) : Bytes :=
  conn.calls.flatMap Call.accepted ++ conn.outputBuffer.readable

/-- The channel asks for writability exactly while bytes wait. -/
def WriteInterest (conn : TcpConnection) : Prop :=
  conn.channel.isWriting = true ↔ conn.outputBuffer.readable ≠ []

structure SameReader (conn next : TcpConnection) : Prop where
  state : next.state = conn.state
  request : next.request = conn.request
  inputBuffer : next.inputBuffer = conn.inputBuffer

/-- What the output side did: it recorded only calls of its own and kept its
buffer in order. -/
structure Wrote (conn next : TcpConnection) (made : List Call) : Prop where
  same : conn.SameReader next
  calls : next.calls = conn.calls ++ made
  output : ∀ entry ∈ made, entry.isOutput = true
  valid : next.outputBuffer.Valid
  interest : conn.WriteInterest → next.WriteInterest

variable {conn next : TcpConnection} {made : List Call}

@[simp] theorem stream_call {entry : Call} :
    (conn.call entry).stream =
      conn.calls.flatMap Call.accepted ++ entry.accepted ++ conn.outputBuffer.readable := by
  simp [stream, call]

theorem Wrote.refl (conn : TcpConnection) (valid : conn.outputBuffer.Valid) : Wrote conn conn [] :=
  ⟨⟨rfl, rfl, rfl⟩, by simp, by simp, valid, id⟩

theorem Wrote.behind {entry : Call} (wrote : Wrote (conn.call entry) next made)
    (output : entry.isOutput = true) : Wrote conn next (entry :: made) where
  same := ⟨wrote.same.state, wrote.same.request, wrote.same.inputBuffer⟩
  calls := by
    rw [wrote.calls]
    simp [call]
  output := by simpa [output] using wrote.output
  valid := wrote.valid
  interest := wrote.interest

theorem shutdownInLoop_of_writing (writing : conn.channel.isWriting = true) :
    conn.shutdownInLoop = conn := if_pos writing

theorem shutdownInLoop_of_quiet (quiet : conn.channel.isWriting = false) :
    conn.shutdownInLoop = conn.call (.shutdown conn.outputBuffer.readableBytes) := by
  rw [shutdownInLoop, quiet]
  rfl

/-- Queueing what the direct write left turns on the interest in writing. The
shutdown of a connection in state `Disconnetcing` is asked for only after that
and so does nothing. -/
theorem queueRest_spec (conn : TcpConnection) (valid : conn.outputBuffer.Valid) {messages : Bytes}
    {nWrote : Nat} (left : nWrote < messages.length) :
    ∃ next made, conn.queueRest messages nWrote = .ok next ∧ Wrote conn next made ∧
      next.stream = conn.stream ++ messages.drop nWrote ∧ next.channel.isWriting = true := by
  obtain ⟨outputBuffer, appended, bufferValid, added⟩ :=
    Buffer.append_spec valid (messages.drop nWrote)
  have waiting : messages.drop nWrote ≠ [] := by
    rw [Ne, List.drop_eq_nil_iff]
    omega
  have filled : outputBuffer.readable ≠ [] := by
    rw [added]
    exact List.append_ne_nil_of_right_ne_nil _ waiting
  rw [queueRest, if_pos left, appended, Outcome.ok_bind]
  cases already : conn.channel.isWriting with
  | true =>
      refine ⟨{ conn with outputBuffer }, [], if_pos already, ⟨⟨rfl, rfl, rfl⟩, ?_, ?_, bufferValid,
        fun _ => iff_of_true already filled⟩, ?_, already⟩
      · simp
      · simp
      · simp [stream, added]
  | false =>
      let enabled := { conn with outputBuffer }.enableWriting
      have on : enabled.channel.isWriting = true := Channel.isWriting_enableWriting _
      have result : (if enabled.state = .disconnetcing then
          (return enabled.shutdownInLoop : Outcome TcpConnection) else return enabled) =
            .ok enabled := by
        rw [shutdownInLoop_of_writing on, ite_self]
        rfl
      refine ⟨enabled, [.updateChannel enabled.channel.events],
        (if_neg (by simp [already])).trans result, ⟨⟨rfl, rfl, rfl⟩, rfl, by simp [Call.isOutput],
        bufferValid, fun _ => iff_of_true on filled⟩, ?_, on⟩
      simp [stream, enabled, enableWriting, updateChannel, call, added, Call.accepted]

theorem queueRest_of_le {messages : Bytes} {nWrote : Nat} (all : messages.length ≤ nWrote) :
    conn.queueRest messages nWrote = .ok conn := if_neg (by omega)

theorem sendInLoop_spec (conn : TcpConnection) (valid : conn.outputBuffer.Valid) (messages : Bytes)
    (result : WriteResult) :
    ∃ next made, conn.sendInLoop messages result = .ok next ∧ Wrote conn next made ∧
      next.stream = conn.stream ++ messages ∧
      (conn.channel.isWriting = false → conn.outputBuffer.readable = [] →
        .write messages result ∈ made) ∧
      (messages ≠ [] → next.channel.isWriting = false → next.outputBuffer.readable = []) := by
  by_cases direct : conn.channel.isWriting = false ∧ conn.outputBuffer.readableBytes = 0
  · have empty := valid.readable_eq_nil_iff.mpr direct.2
    have written : (conn.call (.write messages result)).stream ++ messages.drop result.nWrote =
        conn.stream ++ messages := by
      rw [stream_call, stream, empty]
      cases result <;> simp [Call.accepted, WriteResult.nWrote]
    rw [sendInLoop, if_pos (by simpa using direct)]
    by_cases left : result.nWrote < messages.length
    · obtain ⟨next, made, queued, wrote, shown, writing⟩ :=
        queueRest_spec (conn.call (.write messages result)) valid left
      exact ⟨next, _, queued, wrote.behind rfl, shown.trans written, fun _ _ => List.mem_cons_self,
        fun _ quiet => absurd (writing.symm.trans quiet) (by simp)⟩
    · have all := Nat.le_of_not_lt left
      refine ⟨_, _, queueRest_of_le all, (Wrote.refl (conn.call _) valid).behind rfl, ?_,
        fun _ _ => List.mem_cons_self, fun _ _ => empty⟩
      rw [← written, List.drop_eq_nil_of_le all, List.append_nil]
  · rw [sendInLoop, if_neg (by simpa using direct)]
    have waits : conn.channel.isWriting = false → conn.outputBuffer.readable ≠ [] :=
      fun quiet empty => direct ⟨quiet, valid.readable_eq_nil_iff.mp empty⟩
    by_cases some : 0 < messages.length
    · obtain ⟨next, made, queued, wrote, shown, writing⟩ := queueRest_spec conn valid some
      exact ⟨next, made, queued, wrote, shown, fun quiet empty => absurd empty (waits quiet),
        fun _ quiet => absurd (writing.symm.trans quiet) (by simp)⟩
    · have nothing : messages = [] := List.eq_nil_of_length_eq_zero (by omega)
      exact ⟨conn, [], queueRest_of_le (by omega), Wrote.refl conn valid, by simp [nothing],
        fun quiet empty => absurd empty (waits quiet), fun other => absurd nothing other⟩

private theorem retrieveWritten_spec (conn : TcpConnection) (valid : conn.outputBuffer.Valid) {nWrote : Nat}
    (writing : conn.channel.isWriting = true)
    (available : nWrote ≤ conn.outputBuffer.readableBytes) :
    ∃ next made, conn.retrieveWritten nWrote = .ok next ∧ Wrote conn next made ∧
      next.stream = conn.calls.flatMap Call.accepted ++ conn.outputBuffer.readable.drop nWrote := by
  obtain ⟨outputBuffer, retrieved, nextValid, left⟩ := Buffer.retrieve_spec valid available
  rw [retrieveWritten, retrieved, Outcome.ok_bind]
  by_cases drained : outputBuffer.readableBytes = 0
  · have empty := nextValid.readable_eq_nil_iff.mpr drained
    let disabled := { conn with outputBuffer }.disableWriting
    have off : disabled.channel.isWriting = false := Channel.isWriting_disableWriting _
    refine ⟨disabled, [.updateChannel disabled.channel.events], if_pos drained, ⟨⟨rfl, rfl, rfl⟩, rfl,
      by simp [Call.isOutput], nextValid, fun _ => iff_of_false (by simp [off]) (not_not_intro empty)⟩, ?_⟩
    rw [← left]
    simp [stream, disabled, disableWriting, updateChannel, call, Call.accepted]
  · have waiting : outputBuffer.readable ≠ [] := fun empty =>
      drained (nextValid.readable_eq_nil_iff.mp empty)
    refine ⟨{ conn with outputBuffer }, [], if_neg drained, ⟨⟨rfl, rfl, rfl⟩, ?_, ?_, nextValid,
      fun _ => iff_of_true writing waiting⟩, ?_⟩
    · simp
    · simp
    · rw [stream, left]

theorem handleWrite_spec (valid : conn.outputBuffer.Valid) {result : WriteResult}
    (offered : result.nWrote ≤ conn.outputBuffer.readableBytes) :
    ∃ next made, conn.handleWrite result = .ok next ∧ Wrote conn next made ∧
      next.stream = conn.stream := by
  cases writing : conn.channel.isWriting with
  | false => exact ⟨conn, [], if_neg (by simp [writing]), Wrote.refl conn valid, rfl⟩
  | true =>
      let entry : Call := .write conn.outputBuffer.readable result
      have unfolded : conn.handleWrite result =
          if 0 < result.nWrote then (conn.call entry).retrieveWritten result.nWrote
          else .ok (conn.call entry) := by
        rw [handleWrite, if_pos writing, Buffer.bytesBetween_spec valid]
        rfl
      have taken : (conn.call entry).calls.flatMap Call.accepted ++
          conn.outputBuffer.readable.drop result.nWrote = conn.stream := by
        cases result <;>
          simp [entry, TcpConnection.call, stream, Call.accepted, WriteResult.nWrote]
      rw [unfolded]
      split_ifs with some
      · obtain ⟨next, made, retrieved, wrote, shown⟩ :=
          retrieveWritten_spec (conn.call entry) valid writing offered
        exact ⟨next, entry :: made, retrieved, wrote.behind rfl, shown.trans taken⟩
      · refine ⟨conn.call entry, [entry], rfl, (Wrote.refl (conn.call entry) valid).behind rfl, ?_⟩
        rw [← taken, Nat.eq_zero_of_not_pos some]
        rfl

/-- A `handleWrite` that returns and has something to write took no more than
was waiting. -/
theorem handleWrite_offered {result : WriteResult} (valid : conn.outputBuffer.Valid)
    (writing : conn.channel.isWriting = true) (written : conn.handleWrite result = .ok next) :
    result.nWrote ≤ conn.outputBuffer.readableBytes := by
  rw [handleWrite, if_pos writing, Buffer.bytesBetween_spec valid, Outcome.ok_bind] at written
  simp only at written
  split_ifs at written with some
  · obtain ⟨outputBuffer, retrieved, _⟩ := Outcome.bind_eq_ok_iff.mp written
    obtain ⟨_, available, _⟩ := Outcome.bind_eq_ok_iff.mp retrieved
    exact assert_ok_iff.mp available
  · omega

theorem handleWrite_of_quiet {result : WriteResult} (quiet : conn.channel.isWriting = false) :
    conn.handleWrite result = .ok conn := if_neg (by simp [quiet])

/-- A `handleWrite` that returns wrote, or found nothing to write. -/
theorem handleWrite_wrote {result : WriteResult} (valid : conn.outputBuffer.Valid)
    (written : conn.handleWrite result = .ok next) :
    ∃ made, Wrote conn next made ∧ (conn.channel.isWriting = false → next = conn) := by
  cases writing : conn.channel.isWriting with
  | false =>
      rw [handleWrite_of_quiet writing] at written
      cases written
      exact ⟨[], Wrote.refl conn valid, fun _ => rfl⟩
  | true =>
      obtain ⟨other, made, same, wrote, _⟩ := handleWrite_spec valid (handleWrite_offered valid writing written)
      cases written.symm.trans same
      exact ⟨made, wrote, fun quiet => by cases quiet⟩

section Wire

variable {messages : Bytes}

theorem stream_eq_wire (conn : TcpConnection) : conn.stream = conn.wire ++ conn.outputBuffer.readable := rfl

theorem wire_of_silent (calls : next.calls = conn.calls ++ made) (silent : made.flatMap Call.accepted = []) :
    next.wire = conn.wire := by
  rw [wire, calls, List.flatMap_append, silent, List.append_nil, wire]

@[simp] theorem wire_call {entry : Call} : (conn.call entry).wire = conn.wire ++ entry.accepted := by
  simp [wire, call]

private theorem wire_updateChannel {channel : Channel} : (conn.updateChannel channel).wire = conn.wire :=
  wire_of_silent rfl rfl

theorem wire_shutdownInLoop : conn.shutdownInLoop.wire = conn.wire := by
  unfold shutdownInLoop
  split_ifs
  · rfl
  · exact wire_of_silent rfl rfl

private theorem wire_queueRest {nWrote : Nat} (queued : conn.queueRest messages nWrote = .ok next) :
    next.wire = conn.wire := by
  unfold queueRest at queued
  split_ifs at queued
  · obtain ⟨outputBuffer, _, queued⟩ := Outcome.bind_eq_ok_iff.mp queued
    simp only at queued
    split_ifs at queued
    · cases queued
      rfl
    · cases queued
      exact wire_shutdownInLoop.trans wire_updateChannel
    · cases queued
      exact wire_updateChannel
  · cases queued
    rfl

/-- A direct write that fails takes nothing. -/
theorem wire_sendInLoop_failed (sent : conn.sendInLoop messages .failed = .ok next) : next.wire = conn.wire := by
  unfold sendInLoop at sent
  split_ifs at sent
  · exact (wire_queueRest sent).trans (wire_of_silent rfl rfl)
  · exact wire_queueRest sent

theorem wire_send_failed (sent : conn.send messages .failed = .ok next) : next.wire = conn.wire := by
  have recorded : (conn.call (.send messages)).wire = conn.wire := wire_of_silent rfl rfl
  unfold send at sent
  simp only at sent
  split_ifs at sent
  · exact (wire_sendInLoop_failed sent).trans recorded
  · cases sent
    exact recorded

theorem wire_handleWrite_failed (written : conn.handleWrite .failed = .ok next) : next.wire = conn.wire := by
  have nothing : ¬ 0 < WriteResult.failed.nWrote := Nat.lt_irrefl 0
  cases writing : conn.channel.isWriting with
  | false =>
      rw [handleWrite_of_quiet writing] at written
      cases written
      rfl
  | true =>
      rw [handleWrite, if_pos writing] at written
      obtain ⟨offered, _, written⟩ := Outcome.bind_eq_ok_iff.mp written
      simp only [if_neg nothing] at written
      cases written
      exact wire_of_silent rfl rfl

end Wire

end TcpConnection

end NutServer.Net
