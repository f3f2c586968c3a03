import NutServer.Net.TcpConnectionProperties

/-! The calls that each member function of a connection makes. Only
`handleClose` and `connectDestroyed` make calls that end something. -/

set_option autoImplicit false

namespace NutServer.Net

def Call.isEnding : Call → Bool
  | .removeChannel | .closeCallback => true
  | _ => false

def Call.isUpdate : Call → Bool
  | .updateChannel _ => true
  | _ => false

namespace TcpConnection

/-- A member function that goes on with the connection, and the calls it made. -/
structure Kept (conn next : TcpConnection) (made : List Call) : Prop where
  state : next.state = conn.state
  calls : next.calls = conn.calls ++ made
  goesOn : ∀ call ∈ made, call.isEnding = false
  input : next.inputBuffer.Valid
  output : next.outputBuffer.Valid

structure Buffered (conn : TcpConnection) : Prop where
  input : conn.inputBuffer.Valid
  output : conn.outputBuffer.Valid

variable {conn next : TcpConnection} {made : List Call} {messages : Bytes} {result : WriteResult}

theorem Kept.buffered (kept : conn.Kept next made) : next.Buffered := ⟨kept.input, kept.output⟩

theorem Buffered.unchanged (buffered : conn.Buffered) : conn.Kept conn [] where
  state := rfl
  calls := (List.append_nil _).symm
  goesOn _ member := by cases member
  input := buffered.input
  output := buffered.output

theorem Buffered.called (buffered : conn.Buffered) {entry : Call} (goesOn : entry.isEnding = false) :
    conn.Kept (conn.call entry) [entry] where
  state := rfl
  calls := rfl
  goesOn call member := by
    cases List.mem_singleton.mp member
    exact goesOn
  input := buffered.input
  output := buffered.output

theorem Kept.after {middle : TcpConnection} {entry : Call} (kept : middle.Kept next made)
    (first : conn.Kept middle [entry]) : conn.Kept next (entry :: made) where
  state := kept.state.trans first.state
  calls := by rw [kept.calls, first.calls, List.append_assoc, List.singleton_append]
  goesOn call member := by
    cases List.mem_cons.mp member with
    | inl same => exact first.goesOn call (List.mem_singleton.mpr same)
    | inr later => exact kept.goesOn call later
  input := kept.input
  output := kept.output

private theorem isEnding_of_isOutput {call : Call} (output : call.isOutput = true) : call.isEnding = false := by
  cases call <;> first | rfl | cases output

theorem Wrote.kept (wrote : Wrote conn next made) (buffered : conn.Buffered) : conn.Kept next made where
  state := wrote.same.state
  calls := wrote.calls
  goesOn call member := isEnding_of_isOutput (wrote.output call member)
  input := wrote.same.inputBuffer ▸ buffered.input
  output := wrote.valid

/-- So many of the bytes of `messages` are not taken by the direct write. -/
def leaves (conn : TcpConnection) (messages : Bytes) (result : WriteResult) : Bool :=
  (if conn.outputBuffer.readableBytes = 0 then result.nWrote else 0) < messages.length

private theorem queueRest_quiet (buffered : conn.Buffered) (quiet : conn.channel.isWriting = false) (messages : Bytes)
    (nWrote : Nat) :
    ∃ next made, conn.queueRest messages nWrote = .ok next ∧ conn.Kept next made ∧
      made.any Call.isUpdate = decide (nWrote < messages.length) := by
  by_cases left : nWrote < messages.length
  · obtain ⟨outputBuffer, appended, valid, -⟩ := Buffer.append_spec buffered.output (messages.drop nWrote)
    let enabled := { conn with outputBuffer }.enableWriting
    have on : enabled.channel.isWriting = true := Channel.isWriting_enableWriting _
    have result : (if enabled.state = .disconnetcing then
        (return enabled.shutdownInLoop : Outcome TcpConnection) else return enabled) = .ok enabled := by
      rw [shutdownInLoop_of_writing on, ite_self]
      rfl
    refine ⟨enabled, [.updateChannel enabled.channel.events], ?_, ⟨rfl, rfl, ?_, buffered.input, valid⟩, ?_⟩
    · rw [queueRest, if_pos left, appended, Outcome.ok_bind]
      exact (if_neg (by simp [quiet])).trans result
    · intro call member
      cases List.mem_singleton.mp member
      rfl
    · simp [left, Call.isUpdate]
  · exact ⟨conn, [], queueRest_of_le (by omega), buffered.unchanged, by simp [left]⟩

/-- Without interest in writing, `sendInLoop` changes the interest exactly when
something is left to write. -/
theorem sendInLoop_quiet (buffered : conn.Buffered) (quiet : conn.channel.isWriting = false) (messages : Bytes)
    (result : WriteResult) :
    ∃ next made, conn.sendInLoop messages result = .ok next ∧ conn.Kept next made ∧
      made.any Call.isUpdate = conn.leaves messages result := by
  by_cases empty : conn.outputBuffer.readableBytes = 0
  · let entry : Call := .write messages result
    have first : conn.Kept (conn.call entry) [entry] := buffered.called rfl
    obtain ⟨next, made, queued, kept, updates⟩ :=
      queueRest_quiet first.buffered quiet messages result.nWrote
    refine ⟨next, entry :: made, ?_, kept.after first, ?_⟩
    · rw [sendInLoop, if_pos (by simp [quiet, empty])]
      exact queued
    · simp [updates, leaves, empty, entry, Call.isUpdate]
  · obtain ⟨next, made, queued, kept, updates⟩ := queueRest_quiet buffered quiet messages 0
    refine ⟨next, made, ?_, kept, ?_⟩
    · rw [sendInLoop, if_neg (by simp [empty])]
      exact queued
    · rw [updates, leaves, if_neg empty]

theorem sendInLoop_kept (buffered : conn.Buffered) (messages : Bytes) (result : WriteResult) :
    ∃ next made, conn.sendInLoop messages result = .ok next ∧ conn.Kept next made := by
  obtain ⟨next, made, sent, wrote, -⟩ := sendInLoop_spec conn buffered.output messages result
  exact ⟨next, made, sent, wrote.kept buffered⟩

theorem send_kept (buffered : conn.Buffered) (messages : Bytes) (result : WriteResult) :
    ∃ next made, conn.send messages result = .ok next ∧ conn.Kept next (.send messages :: made) ∧
      (conn.state ≠ .connected → made = []) := by
  let entry : Call := .send messages
  have first : conn.Kept (conn.call entry) [entry] := buffered.called rfl
  by_cases connected : conn.state = .connected
  · obtain ⟨next, made, sent, kept⟩ := sendInLoop_kept first.buffered messages result
    exact ⟨next, made, (if_pos connected).trans sent, kept.after first, fun other => absurd connected other⟩
  · exact ⟨conn.call entry, [], if_neg connected, first, fun _ => rfl⟩

theorem shutdownInLoop_kept (buffered : conn.Buffered) :
    ∃ made, conn.Kept conn.shutdownInLoop made ∧ made.any Call.isUpdate = false := by
  cases writing : conn.channel.isWriting with
  | true =>
      rw [shutdownInLoop_of_writing writing]
      exact ⟨[], buffered.unchanged, rfl⟩
  | false =>
      rw [shutdownInLoop_of_quiet writing]
      exact ⟨_, buffered.called rfl, rfl⟩

theorem handleWrite_kept (buffered : conn.Buffered)
    (offered : conn.channel.isWriting = true → result.nWrote ≤ conn.outputBuffer.readableBytes) :
    ∃ next made, conn.handleWrite result = .ok next ∧ conn.Kept next made := by
  cases writing : conn.channel.isWriting with
  | false => exact ⟨conn, [], handleWrite_of_quiet writing, buffered.unchanged⟩
  | true =>
      obtain ⟨next, made, written, wrote, -⟩ := handleWrite_spec buffered.output (offered writing)
      exact ⟨next, made, written, wrote.kept buffered⟩

/-- A read goes on with the connection, or it was the read of nothing, which
closes it. -/
theorem handleRead_or_closes (buffered : conn.Buffered) {result : ReadResult}
    (fits : result.size ≤ conn.inputBuffer.writableBytes + Buffer.extrabufSize) :
    (result ≠ .received [] ∧
      ∃ next made, conn.handleRead (fun conn => return conn) result = .ok next ∧ conn.Kept next made) ∨
      result = .received [] ∧ ∃ inputBuffer, inputBuffer.Valid ∧
        conn.handleRead (fun conn => return conn) result = { conn with inputBuffer }.handleClose := by
  cases result with
  | failed => exact .inl ⟨by simp, _, _, rfl, buffered.called rfl⟩
  | received bytes =>
      obtain ⟨inputBuffer, read, valid, -⟩ := Buffer.readFd_spec buffered.input fits
      by_cases nothing : bytes = []
      · subst nothing
        refine .inr ⟨rfl, inputBuffer, valid, ?_⟩
        rw [handleRead, read]
        rfl
      · have some : 0 < (bytes.length : Int) := by
          have positive := List.length_pos_iff.mpr nothing
          omega
        have calls : conn.calls = conn.calls ++ [] := (List.append_nil _).symm
        refine .inl ⟨by simp [nothing], { conn with inputBuffer }, [], ?_, ⟨rfl, calls, ?_, valid, buffered.output⟩⟩
        · rw [handleRead, read, Outcome.ok_bind]
          exact if_pos some
        · intro call member
          cases member

end TcpConnection

end NutServer.Net
