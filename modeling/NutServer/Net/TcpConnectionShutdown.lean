import NutServer.Net.TcpConnectionOutput

/-!
# Requested shutdowns

Runs of `send()`, `shutdown()` and `handleWrite` on a connection in its loop
thread. Whether `shutdown()` was called is remembered beside the connection,
which does not remember it itself.
-/

set_option autoImplicit false

namespace NutServer.Net

open Library

inductive ShutdownOp where
  | send (messages : Bytes) (result : WriteResult)
  | shutdown
  | handleWrite (result : WriteResult)
  deriving DecidableEq, Repr

structure ShutdownSession where
  conn : TcpConnection
  requested : Bool

namespace ShutdownSession

/-- `write` never reports more than it was offered. -/
def Allowed (session : ShutdownSession) : ShutdownOp → Prop
  | .send messages result => result.nWrote ≤ messages.length
  | .shutdown => True
  | .handleWrite result => result.nWrote ≤ session.conn.outputBuffer.readableBytes

instance decidableAllowed (session : ShutdownSession) : ∀ op, Decidable (session.Allowed op)
  | .send messages result => inferInstanceAs (Decidable (result.nWrote ≤ messages.length))
  | .shutdown => isTrue trivial
  | .handleWrite result =>
      inferInstanceAs (Decidable (result.nWrote ≤ session.conn.outputBuffer.readableBytes))

def perform (session : ShutdownSession) : ShutdownOp → Outcome ShutdownSession
  | .send messages result => return { session with conn := ← session.conn.send messages result }
  | .shutdown => return { conn := session.conn.shutdown, requested := true }
  | .handleWrite result => return { session with conn := ← session.conn.handleWrite result }

def step (session : ShutdownSession) (op : ShutdownOp) : Option ShutdownSession :=
  if session.Allowed op then (session.perform op).toOption else none

def ShutDown (session : ShutdownSession) : Prop := ∃ pending, Call.shutdown pending ∈ session.conn.calls

instance decidableShutDown (session : ShutdownSession) : Decidable session.ShutDown :=
  decidable_of_iff (session.conn.calls.any Call.isShutdown = true) (by
    rw [List.any_eq_true]
    constructor
    · rintro ⟨entry, member, isShutdown⟩
      cases entry with
      | shutdown pending => exact ⟨pending, member⟩
      | send | write | getSocketError | updateChannel | removeChannel | closeCallback => cases isShutdown
    · rintro ⟨pending, member⟩
      exact ⟨_, member, rfl⟩)

/-- A requested shutdown was made, or has output to wait for. -/
def Kept (session : ShutdownSession) : Prop :=
  session.requested = true → session.conn.outputBuffer.readable = [] → session.ShutDown

instance decidableKept (session : ShutdownSession) : Decidable session.Kept :=
  inferInstanceAs (Decidable
    (session.requested = true → session.conn.outputBuffer.readable = [] → session.ShutDown))

/-- The last waiting bytes leave, and a shutdown that was requested before is
not made up for. -/
def Forgets (session : ShutdownSession) : ShutdownOp → Prop
  | .handleWrite result => session.requested = true ∧ ¬ session.ShutDown ∧
      session.conn.channel.isWriting = true ∧ session.conn.outputBuffer.readableBytes ≤ result.nWrote
  | _ => False

instance decidableForgets (session : ShutdownSession) : ∀ op, Decidable (session.Forgets op)
  | .handleWrite result => inferInstanceAs (Decidable (session.requested = true ∧ ¬ session.ShutDown ∧
      session.conn.channel.isWriting = true ∧ session.conn.outputBuffer.readableBytes ≤ result.nWrote))
  | .send _ _ | .shutdown => isFalse id

end ShutdownSession

namespace TcpConnection

variable {conn next : TcpConnection} {made : List Call}

/-- Bytes that are sent while others wait join them: the direct write is skipped. -/
theorem sendInLoop_of_writing {messages : Bytes} {result : WriteResult}
    (writing : conn.channel.isWriting = true) (sent : conn.sendInLoop messages result = .ok next) :
    next.channel = conn.channel := by
  rw [sendInLoop, if_neg (by simp [writing]), queueRest] at sent
  split_ifs at sent
  · obtain ⟨outputBuffer, _, sent⟩ := Outcome.bind_eq_ok_iff.mp sent
    simp only [writing, if_true] at sent
    cases sent
    rfl
  · cases sent
    rfl

private theorem handleWrite_left {result : WriteResult} (valid : conn.outputBuffer.Valid)
    (writing : conn.channel.isWriting = true) (written : conn.handleWrite result = .ok next) :
    next.outputBuffer.readable = conn.outputBuffer.readable.drop result.nWrote := by
  have offered := handleWrite_offered valid writing written
  rw [handleWrite, if_pos writing, Buffer.bytesBetween_spec valid, Outcome.ok_bind] at written
  simp only at written
  split_ifs at written with some
  · obtain ⟨outputBuffer, retrieved, written⟩ := Outcome.bind_eq_ok_iff.mp written
    obtain ⟨other, same, _, left⟩ := Buffer.retrieve_spec valid offered
    cases retrieved.symm.trans same
    simp only at written
    split_ifs at written <;> (cases written; exact left)
  · cases written
    rw [Nat.eq_zero_of_not_pos some]
    rfl

end TcpConnection

namespace ShutdownSession

variable {session next : ShutdownSession} {op : ShutdownOp}

structure Tidy (session : ShutdownSession) : Prop where
  valid : session.conn.outputBuffer.Valid
  interest : session.conn.WriteInterest

theorem step_eq_some_iff : step session op = some next ↔ session.Allowed op ∧ session.perform op = .ok next :=
  Outcome.ite_toOption_eq_some_iff

private theorem shutDown_of_wrote {conn : TcpConnection} {made : List Call} {requested : Bool}
    (wrote : TcpConnection.Wrote session.conn conn made) :
    (ShutdownSession.mk conn requested).ShutDown ↔ session.ShutDown := by
  unfold ShutDown
  rw [wrote.calls]
  refine exists_congr fun pending => ?_
  rw [List.mem_append, or_iff_left]
  exact fun here => absurd (wrote.output _ here) (by simp [Call.isOutput])

theorem send_spec (tidy : session.Tidy) (messages : Bytes) (result : WriteResult) :
    ∃ conn, session.conn.send messages result = .ok conn ∧ (ShutdownSession.mk conn session.requested).Tidy ∧
      ((ShutdownSession.mk conn session.requested).ShutDown ↔ session.ShutDown) ∧
      (session.conn.channel.isWriting = true → conn.channel.isWriting = true) := by
  let entered := session.conn.call (.send messages)
  have enteredShut : (ShutdownSession.mk entered session.requested).ShutDown ↔ session.ShutDown := by
    simp [ShutDown, entered, TcpConnection.call]
  by_cases connected : session.conn.state = .connected
  · obtain ⟨conn, made, sent, wrote, -⟩ := TcpConnection.sendInLoop_spec entered tidy.valid messages result
    have sentShut : (ShutdownSession.mk conn session.requested).ShutDown ↔
        (ShutdownSession.mk entered session.requested).ShutDown := shutDown_of_wrote wrote
    refine ⟨conn, (if_pos connected).trans sent, ⟨wrote.valid, wrote.interest tidy.interest⟩,
      sentShut.trans enteredShut, fun writing => ?_⟩
    rw [TcpConnection.sendInLoop_of_writing (show entered.channel.isWriting = true from writing) sent]
    exact writing
  · exact ⟨entered, if_neg connected, ⟨tidy.valid, tidy.interest⟩, enteredShut, id⟩

private theorem Tidy.drained_iff (tidy : session.Tidy) :
    session.conn.outputBuffer.readable = [] ↔ session.conn.channel.isWriting = false := by
  have interest : session.conn.channel.isWriting = true ↔ session.conn.outputBuffer.readable ≠ [] := tidy.interest
  rw [← Bool.not_eq_true, interest, not_not]

theorem send_kept (tidy : session.Tidy) (messages : Bytes) (result : WriteResult) :
    ∃ next, session.perform (.send messages result) = .ok next ∧ next.Tidy ∧ (session.Kept → next.Kept) := by
  obtain ⟨conn, sent, nextTidy, shut, writes⟩ := send_spec tidy messages result
  refine ⟨⟨conn, session.requested⟩, Outcome.bind_pure_eq_ok_iff.mpr ⟨conn, sent, rfl⟩, nextTidy, ?_⟩
  intro kept requested empty
  -- Nothing waits behind the send, so nothing waited before it.
  have quiet : session.conn.channel.isWriting = false := by
    by_contra busy
    rw [nextTidy.drained_iff, writes (by simpa using busy)] at empty
    cases empty
  exact shut.mpr (kept requested (tidy.drained_iff.mpr quiet))

private theorem shutdown_kept (tidy : session.Tidy) :
    ∃ next, session.perform .shutdown = .ok next ∧ next.Tidy ∧ next.Kept := by
  refine ⟨⟨session.conn.shutdown, true⟩, rfl, ?_⟩
  cases writing : session.conn.channel.isWriting with
  | true =>
      rw [TcpConnection.shutdown, TcpConnection.shutdownInLoop_of_writing writing]
      exact ⟨⟨tidy.valid, tidy.interest⟩, fun _ empty => absurd empty (tidy.interest.mp writing)⟩
  | false =>
      rw [TcpConnection.shutdown, TcpConnection.shutdownInLoop_of_quiet writing]
      exact ⟨⟨tidy.valid, tidy.interest⟩, fun _ _ => ⟨_, List.mem_append_right _ (List.mem_singleton.mpr rfl)⟩⟩

theorem handleWrite_kept (tidy : session.Tidy) {result : WriteResult}
    (offered : result.nWrote ≤ session.conn.outputBuffer.readableBytes) :
    ∃ next, session.perform (.handleWrite result) = .ok next ∧ next.Tidy ∧
      (session.Kept → (next.Kept ↔ ¬ session.Forgets (.handleWrite result))) := by
  obtain ⟨conn, made, written, wrote, -⟩ := TcpConnection.handleWrite_spec tidy.valid offered
  have shut : (ShutdownSession.mk conn session.requested).ShutDown ↔ session.ShutDown := shutDown_of_wrote wrote
  refine ⟨⟨conn, session.requested⟩, Outcome.bind_pure_eq_ok_iff.mpr ⟨conn, written, rfl⟩,
    ⟨wrote.valid, wrote.interest tidy.interest⟩, fun kept => ?_⟩
  cases writing : session.conn.channel.isWriting with
  | false =>
      rw [TcpConnection.handleWrite_of_quiet writing] at written
      cases written
      exact iff_of_true kept fun forgets => by simp [Forgets, writing] at forgets
  | true =>
      have left : conn.outputBuffer.readable = [] ↔ session.conn.outputBuffer.readableBytes ≤ result.nWrote := by
        rw [TcpConnection.handleWrite_left tidy.valid writing written, List.drop_eq_nil_iff,
          tidy.valid.length_readable]
      simp only [Kept, Forgets, shut, left, writing]
      tauto

theorem perform_kept (tidy : session.Tidy) (allowed : session.Allowed op) :
    ∃ next, session.perform op = .ok next ∧ next.Tidy ∧ (session.Kept → (next.Kept ↔ ¬ session.Forgets op)) := by
  cases op with
  | send messages result =>
      obtain ⟨next, performed, nextTidy, nextKept⟩ := send_kept tidy messages result
      exact ⟨next, performed, nextTidy, fun kept => iff_of_true (nextKept kept) id⟩
  | shutdown =>
      obtain ⟨next, performed, nextTidy, nextKept⟩ := shutdown_kept tidy
      exact ⟨next, performed, nextTidy, fun _ => iff_of_true nextKept id⟩
  | handleWrite result => exact handleWrite_kept tidy allowed

private theorem step_kept (tidy : session.Tidy) (stepped : step session op = some next) :
    next.Tidy ∧ (session.Kept → (next.Kept ↔ ¬ session.Forgets op)) := by
  obtain ⟨allowed, performed⟩ := step_eq_some_iff.mp stepped
  obtain ⟨other, same, nextTidy, kept⟩ := perform_kept tidy allowed
  cases performed.symm.trans same
  exact ⟨nextTidy, kept⟩

/-- On a connection that has sent nothing yet, whatever is sent and however much
of it each write takes: a requested shutdown is made by the time the output
buffer is empty, throughout the run, exactly when no `handleWrite` empties the
buffer behind a `shutdown()` that found bytes in it. -/
theorem shutdown_kept_iff (conn : TcpConnection) (idle : conn.Idle) (ops : List ShutdownOp)
    (allowed : Along step Allowed ⟨conn, false⟩ ops) :
    (∃ final, run step ⟨conn, false⟩ ops = some final) ∧
      (Throughout step Kept ⟨conn, false⟩ ops ↔
        Along step (fun session op => ¬ session.Forgets op) ⟨conn, false⟩ ops) := by
  have start : (ShutdownSession.mk conn false).Tidy := ⟨idle.outputReady.valid, idle.outputReady.interest⟩
  have startKept : (ShutdownSession.mk conn false).Kept := fun requested => absurd requested (by simp)
  obtain ⟨final, ran, -⟩ := run_total (fun _ session => session.Tidy) start
    (fun past session op tidy isAllowed => by
      obtain ⟨next, performed, nextTidy, -⟩ := perform_kept tidy isAllowed
      exact ⟨next, step_eq_some_iff.mpr ⟨isAllowed, performed⟩, nextTidy⟩) allowed
  refine ⟨⟨final, ran⟩, throughout_iff_along (fun session => session.Tidy ∧ session.Kept) Kept
    ⟨start, startKept⟩ (fun _ holds => holds.2) ?_ ?_ ran⟩
  · rintro session op next ⟨tidy, kept⟩ remembers stepped
    obtain ⟨nextTidy, nextKept⟩ := step_kept tidy stepped
    exact ⟨nextTidy, (nextKept kept).mpr remembers⟩
  · rintro session op next ⟨tidy, kept⟩ forgets stepped nextKept
    exact forgets (((step_kept tidy stepped).2 kept).mp nextKept)

/-- The rest of the response is still waiting when the run ends. -/
theorem shutdown_kept_iff_waiting :
    Throughout step Kept ⟨{ TcpConnection.new 7 with state := .connected }, false⟩
      [.send (ascii "abc") (.wrote 1), .shutdown, .handleWrite (.wrote 1)] :=
  (shutdown_kept_iff { TcpConnection.new 7 with state := .connected } ⟨rfl, rfl, by simp [TcpConnection.new]⟩
    [.send (ascii "abc") (.wrote 1), .shutdown, .handleWrite (.wrote 1)] (by decide +kernel)).2.mpr
    (by decide +kernel)

/-- The kernel takes the response in two parts, with `shutdown()` between them. -/
theorem shutdown_forgotten :
    ∃ final, run step ⟨{ TcpConnection.new 7 with state := .connected }, false⟩
      [.send (ascii "ab") (.wrote 1), .shutdown, .handleWrite (.wrote 1)] = some final ∧ ¬ final.Kept := by
  have forgets : (run step ⟨{ TcpConnection.new 7 with state := .connected }, false⟩
      [.send (ascii "ab") (.wrote 1), .shutdown, .handleWrite (.wrote 1)]).any
        (fun final => ¬ final.Kept) = true := by decide +kernel
  obtain ⟨final, ran, lost⟩ := (Option.any_eq_true _ _).mp forgets
  exact ⟨final, ran, of_decide_eq_true lost⟩

end ShutdownSession

end NutServer.Net
