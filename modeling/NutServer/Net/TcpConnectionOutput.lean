import NutServer.Net.TcpConnectionProperties

/-!
# The output stream of a connection

Runs of `sendInLoop`, `handleWrite` and `shutdownInLoop` in any order and with
any results of `write`.
-/

set_option autoImplicit false

namespace NutServer.Net

open Library

namespace TcpConnection

inductive OutputOp where
  | sendInLoop (messages : Bytes) (result : WriteResult)
  | handleWrite (result : WriteResult)
  | shutdownInLoop
  deriving DecidableEq, Repr

/-- `write` never reports more than it was offered. -/
def OutputOp.Allowed (conn : TcpConnection) : OutputOp → Prop
  | .sendInLoop messages result => result.nWrote ≤ messages.length
  | .handleWrite result => result.nWrote ≤ conn.outputBuffer.readableBytes
  | .shutdownInLoop => True

instance decidableAllowed (conn : TcpConnection) : ∀ op : OutputOp, Decidable (op.Allowed conn)
  | .sendInLoop messages result => inferInstanceAs (Decidable (result.nWrote ≤ messages.length))
  | .handleWrite result =>
      inferInstanceAs (Decidable (result.nWrote ≤ conn.outputBuffer.readableBytes))
  | .shutdownInLoop => isTrue trivial

def perform (conn : TcpConnection) : OutputOp → Outcome TcpConnection
  | .sendInLoop messages result => conn.sendInLoop messages result
  | .handleWrite result => conn.handleWrite result
  | .shutdownInLoop => return conn.shutdownInLoop

def step (conn : TcpConnection) (op : OutputOp) : Option TcpConnection := (conn.perform op).toOption

def OutputOp.messages : OutputOp → Bytes
  | .sendInLoop messages _ => messages
  | _ => []

/-- Nothing was sent yet: the state of a connection from its construction on. -/
structure Idle (conn : TcpConnection) : Prop where
  output : conn.outputBuffer = Buffer.fresh
  quiet : conn.channel.isWriting = false
  silent : ∀ call ∈ conn.calls, call.accepted = [] ∧ ∀ pending, call ≠ .shutdown pending

structure OutputReady (conn : TcpConnection) : Prop where
  valid : conn.outputBuffer.Valid
  interest : conn.WriteInterest
  shutdowns : ∀ pending, Call.shutdown pending ∈ conn.calls → pending = 0

variable {conn next : TcpConnection} {made : List Call}

theorem OutputReady.wrote (ready : conn.OutputReady) (wrote : Wrote conn next made) :
    next.OutputReady where
  valid := wrote.valid
  interest := wrote.interest ready.interest
  shutdowns pending recorded := by
    rw [wrote.calls] at recorded
    rcases List.mem_append.mp recorded with before | here
    · exact ready.shutdowns pending before
    · cases wrote.output _ here

private theorem shutdownInLoop_spec (ready : conn.OutputReady) :
    conn.shutdownInLoop.OutputReady ∧ conn.shutdownInLoop.stream = conn.stream := by
  cases writing : conn.channel.isWriting with
  | true =>
      rw [shutdownInLoop_of_writing writing]
      exact ⟨ready, rfl⟩
  | false =>
      have empty : conn.outputBuffer.readable = [] := by
        by_contra waiting
        exact absurd (ready.interest.mpr waiting) (by simp [writing])
      rw [shutdownInLoop_of_quiet writing, ready.valid.readable_eq_nil_iff.mp empty]
      refine ⟨⟨ready.valid, ready.interest, fun pending recorded => ?_⟩, ?_⟩
      · rcases List.mem_append.mp recorded with before | here
        · exact ready.shutdowns pending before
        · cases List.mem_singleton.mp here
          rfl
      · simp [stream, call, Call.accepted]

private theorem new_idle (sockfd : Nat) : (new sockfd).Idle := ⟨rfl, Channel.isWriting_new sockfd, by simp [new]⟩

theorem Idle.outputReady (idle : conn.Idle) : conn.OutputReady where
  valid := idle.output ▸ Buffer.fresh_valid
  interest := by simp [WriteInterest, idle.output, idle.quiet]
  shutdowns pending recorded := absurd rfl ((idle.silent _ recorded).2 pending)

theorem Idle.stream (idle : conn.Idle) : conn.stream = [] := by
  have silent : conn.calls.flatMap Call.accepted = [] := by
    rw [List.flatMap_eq_nil_iff]
    exact fun call recorded => (idle.silent call recorded).1
  rw [TcpConnection.stream, silent, idle.output, Buffer.fresh_readable, List.nil_append]

private theorem step_stream (conn : TcpConnection) (op : OutputOp) (ready : conn.OutputReady)
    (allowed : op.Allowed conn) :
    ∃ next, conn.step op = some next ∧ next.OutputReady ∧ next.stream = conn.stream ++ op.messages := by
  cases op with
  | sendInLoop messages result =>
      obtain ⟨next, _, sent, wrote, shown, _⟩ := sendInLoop_spec conn ready.valid messages result
      exact ⟨next, Outcome.toOption_eq_some_iff.mpr sent, ready.wrote wrote, shown⟩
  | handleWrite result =>
      obtain ⟨next, _, written, wrote, shown⟩ := handleWrite_spec ready.valid allowed
      exact ⟨next, Outcome.toOption_eq_some_iff.mpr written, ready.wrote wrote,
        shown.trans (List.append_nil _).symm⟩
  | shutdownInLoop =>
      obtain ⟨nextReady, shown⟩ := shutdownInLoop_spec ready
      exact ⟨conn.shutdownInLoop, rfl, nextReady, shown.trans (List.append_nil _).symm⟩

/-- After every run what the kernel accepted, followed by what waits, is what
was sent, in order; the channel asks for writability exactly while something
waits; and every shutdown happened with nothing waiting. -/
theorem output_in_order (conn : TcpConnection) (ops : List OutputOp) (idle : conn.Idle)
    (allowed : Along step (fun conn op => op.Allowed conn) conn ops) :
    ∃ final, run step conn ops = some final ∧
      final.calls.flatMap Call.accepted ++ final.outputBuffer.readable =
        ops.flatMap OutputOp.messages ∧
      (final.channel.isWriting = true ↔ final.outputBuffer.readable ≠ []) ∧
      ∀ pending, Call.shutdown pending ∈ final.calls → pending = 0 := by
  obtain ⟨final, ran, ready, shown⟩ := run_refines OutputReady stream
    (fun sent op => sent ++ op.messages) idle.outputReady step_stream allowed
  rw [idle.stream, ← List.flatMap_eq_foldl] at shown
  exact ⟨final, ran, shown, ready.interest, ready.shutdowns⟩

theorem output_in_order_parts :
    let ops : List OutputOp := [.sendInLoop (ascii "abcd") (.wrote 1), .shutdownInLoop,
      .sendInLoop (ascii "ef") .failed, .handleWrite (.wrote 2), .handleWrite .failed,
      .handleWrite (.wrote 3), .shutdownInLoop]
    ∃ final, run step (new 7) ops = some final ∧
      final.calls.flatMap Call.accepted ++ final.outputBuffer.readable = ascii "abcdef" := by
  obtain ⟨final, ran, shown, _⟩ := output_in_order (new 7)
    [.sendInLoop (ascii "abcd") (.wrote 1), .shutdownInLoop,
      .sendInLoop (ascii "ef") .failed, .handleWrite (.wrote 2), .handleWrite .failed,
      .handleWrite (.wrote 3), .shutdownInLoop] (new_idle 7) (by decide +kernel)
  exact ⟨final, ran, shown.trans (by decide)⟩

end TcpConnection

end NutServer.Net
