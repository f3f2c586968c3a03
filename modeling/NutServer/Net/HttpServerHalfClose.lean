import NutServer.Library.Machine
import NutServer.Net.HttpServerProperties

/-!
# Writing after the half-close

`shutdown` leaves the connection in state `Connected`, so a message received
after it is answered by another `write`. Without such a message nothing is
written after `::shutdown`.
-/

set_option autoImplicit false

namespace NutServer.Net

open Library

def Call.isWrite : Call → Bool
  | .write _ _ => true
  | _ => false

namespace HttpServer

/-- No `::write` comes after a `::shutdown`. -/
def NoWriteAfterShutdown (calls : List Call) : Prop :=
  calls.Pairwise fun earlier later => earlier.isShutdown = true → later.isWrite = false

instance decidableNoWriteAfterShutdown (calls : List Call) : Decidable (NoWriteAfterShutdown calls) :=
  inferInstanceAs (Decidable (calls.Pairwise _))

def halfClosed (conn : TcpConnection) : Bool := conn.calls.any Call.isShutdown

/-- A connection still in state `Connected` receives bytes after its half-close. -/
def MessageAfterHalfClose (conn : TcpConnection) : Event → Prop
  | .readable (.received bytes) _ =>
      conn.state = .connected ∧ halfClosed conn = true ∧ bytes ≠ []
  | _ => False

instance decidableMessageAfterHalfClose (conn : TcpConnection) :
    ∀ event, Decidable (MessageAfterHalfClose conn event)
  | .readable (.received bytes) _ => inferInstanceAs
      (Decidable (conn.state = .connected ∧ halfClosed conn = true ∧ bytes ≠ []))
  | .readable .failed _ | .writable _ | .destroyed => isFalse id

/-- What holds of a connection on which nothing was written after the half-close. -/
structure Quiet (conn : TcpConnection) : Prop where
  valid : conn.outputBuffer.Valid
  quiet : halfClosed conn = true → conn.channel.isWriting = false
  drained : halfClosed conn = true → conn.state = .connected → conn.outputBuffer.readable = []
  ordered : NoWriteAfterShutdown conn.calls

variable {conn next : TcpConnection} {nullFind : NullFind}

theorem halfClosed_of_calls {made : List Call} (calls : next.calls = conn.calls ++ made)
    (none : ∀ entry ∈ made, entry.isShutdown = false) : halfClosed next = halfClosed conn := by
  have nothing : made.any Call.isShutdown = false := by
    rw [List.any_eq_false]
    intro entry member
    rw [none entry member]
    exact Bool.false_ne_true
  rw [halfClosed, calls, List.any_append, nothing, Bool.or_false, halfClosed]

private theorem noWriteAfterShutdown_append {calls made : List Call} (before : NoWriteAfterShutdown calls)
    (here : NoWriteAfterShutdown made)
    (across : calls.any Call.isShutdown = true → ∀ entry ∈ made, entry.isWrite = false) :
    NoWriteAfterShutdown (calls ++ made) := by
  refine List.pairwise_append.mpr ⟨before, here, fun earlier inCalls later inMade shut => ?_⟩
  exact across (List.any_eq_true.mpr ⟨earlier, inCalls, shut⟩) later inMade

private theorem noWriteAfterShutdown_of_open {made : List Call}
    (none : ∀ entry ∈ made, entry.isShutdown = false) : NoWriteAfterShutdown made := by
  refine List.pairwise_of_forall_mem_list fun earlier member later _ shut => ?_
  rw [none earlier member] at shut
  cases shut

private theorem Quiet.of_silent {made : List Call} (before : Quiet conn)
    (calls : next.calls = conn.calls ++ made)
    (silent : ∀ entry ∈ made, entry.isShutdown = false ∧ entry.isWrite = false)
    (output : next.outputBuffer = conn.outputBuffer)
    (state : next.state = .connected → conn.state = .connected)
    (writing : conn.channel.isWriting = false → next.channel.isWriting = false) : Quiet next := by
  have closed := halfClosed_of_calls calls fun entry member => (silent entry member).1
  refine ⟨output ▸ before.valid, ?_, ?_, ?_⟩
  · rw [closed]
    exact fun shut => writing (before.quiet shut)
  · rw [closed, output]
    exact fun shut connected => before.drained shut (state connected)
  · rw [calls]
    exact noWriteAfterShutdown_append before.ordered
      (noWriteAfterShutdown_of_open fun entry member => (silent entry member).1)
      fun _ entry member => (silent entry member).2

theorem isShutdown_of_isOutput {entry : Call} (output : entry.isOutput = true) :
    entry.isShutdown = false := by
  cases entry <;> first | rfl | cases output

/-- An answer before the half-close, or in another state, keeps the order: its
own shutdown comes last and only with nothing left to write. -/
theorem Quiet.answered {text : Bytes} {result : WriteResult} {made last : List Call}
    (before : Quiet conn) (answered : Answered conn next text result made last) (nonempty : text ≠ [])
    (allowed : halfClosed conn = true → conn.state ≠ .connected) : Quiet next := by
  have front : ∀ entry ∈ Call.send text :: made, entry.isShutdown = false := by
    intro entry member
    rcases List.mem_cons.mp member with rfl | member
    · rfl
    · exact isShutdown_of_isOutput (answered.output entry member)
  have unsent : halfClosed conn = true → ∀ entry ∈ Call.send text :: made, entry.isWrite = false := by
    intro closed entry member
    rw [(answered.refused (allowed closed)).1] at member
    cases List.mem_singleton.mp member
    rfl
  have still : halfClosed next = true → last = [] → halfClosed conn = true := by
    intro closed none
    rwa [halfClosed_of_calls answered.calls (by simpa [none] using front)] at closed
  refine ⟨answered.valid, fun closed => ?_, fun closed connected => ?_, ?_⟩
  · rcases answered.last with none | ⟨_, _, quiet⟩
    · have closedBefore := still closed none
      rw [(answered.refused (allowed closedBefore)).2]
      exact before.quiet closedBefore
    · exact quiet
  · rw [answered.same.state] at connected
    rcases answered.last with none | ⟨_, _, quiet⟩
    · exact absurd connected (allowed (still closed none))
    · exact answered.drained connected nonempty quiet
  · rw [answered.calls]
    have here : NoWriteAfterShutdown (Call.send text :: made ++ last) := by
      refine noWriteAfterShutdown_append (noWriteAfterShutdown_of_open front) ?_ ?_
      · rcases answered.last with rfl | ⟨_, rfl, _⟩
        · exact List.Pairwise.nil
        · exact List.pairwise_singleton _ _
      · intro shut
        obtain ⟨entry, member, isShut⟩ := List.any_eq_true.mp shut
        rw [front entry member] at isShut
        cases isShut
    refine noWriteAfterShutdown_append before.ordered here fun closed entry member => ?_
    rcases List.mem_append.mp member with inFront | inLast
    · exact unsent closed entry inFront
    · rcases answered.last with rfl | ⟨_, rfl, _⟩
      · cases inLast
      · cases List.mem_singleton.mp inLast
        rfl

theorem Quiet.handleWrite {result : WriteResult} (before : Quiet conn)
    (written : conn.handleWrite result = .ok next) : Quiet next := by
  obtain ⟨made, wrote, idle⟩ := TcpConnection.handleWrite_wrote before.valid written
  cases writing : conn.channel.isWriting with
  | false =>
      rw [idle writing]
      exact before
  | true =>
      have isOpen : halfClosed conn = false := by
        rw [← Bool.not_eq_true]
        intro closed
        exact absurd (writing.symm.trans (before.quiet closed)) (by simp)
      have none := fun entry member => isShutdown_of_isOutput (wrote.output entry member)
      have stillOpen := (halfClosed_of_calls wrote.calls none).trans isOpen
      refine ⟨wrote.valid, fun closed => ?_, fun closed => ?_, ?_⟩
      · exact absurd (closed.symm.trans stillOpen) (by simp)
      · exact absurd (closed.symm.trans stillOpen) (by simp)
      · rw [wrote.calls]
        refine noWriteAfterShutdown_append before.ordered (noWriteAfterShutdown_of_open none) fun closed => ?_
        exact absurd (closed.symm.trans isOpen) (by simp)

/-- A direct write answers a message that is received after the half-close. -/
theorem answered_after_halfClose {text : Bytes} {result : WriteResult} {made last : List Call}
    (before : Quiet conn) (closed : halfClosed conn = true) (connected : conn.state = .connected)
    (answered : Answered conn next text result made last) : ¬ NoWriteAfterShutdown next.calls := by
  intro ordered
  have written := answered.direct connected (before.quiet closed) (before.drained closed connected)
  rw [answered.calls] at ordered
  obtain ⟨entry, member, shut⟩ := List.any_eq_true.mp closed
  have across := (List.pairwise_append.mp ordered).2.2 entry member (.write text result)
    (List.mem_append_left _ (List.mem_cons_of_mem _ written)) shut
  cases across

theorem Quiet.received {request : HttpRequest} {inputBuffer : Buffer} (before : Quiet conn) :
    Quiet ({ conn with inputBuffer }.setReq request) :=
  ⟨before.valid, before.quiet, before.drained, before.ordered⟩

theorem Quiet.step {event : Event} (before : Quiet conn) (allowed : ¬ MessageAfterHalfClose conn event)
    (stepped : step nullFind conn event = some next) : Quiet next := by
  have handled := Outcome.toOption_eq_some_iff.mp stepped
  cases event with
  | writable result => exact before.handleWrite handled
  | destroyed =>
      obtain ⟨calls, writing, state, output, _⟩ := connectDestroyed_effect handled
      exact before.of_silent calls (by simp [Call.isShutdown, Call.isWrite]) output
        (by simp [state]) fun _ => writing
  | readable result answer =>
      rcases readable_cases before.valid handled with ⟨_, rfl⟩ | ⟨_, inputBuffer, _, _, closed⟩ |
        ⟨bytes, inputBuffer, n, request, _, text, made, last, rfl, some, _, _, nonempty, answered⟩
      · have calls : conn.handleError.calls = conn.calls ++ [.getSocketError] := rfl
        exact before.of_silent calls (by simp [Call.isShutdown, Call.isWrite]) rfl id id
      · obtain ⟨calls, writing, same, output⟩ := TcpConnection.handleClose_effect closed
        exact before.of_silent calls (by simp [Call.isShutdown, Call.isWrite]) output
          (by simp [same.state]) fun _ => writing
      · exact before.received.answered answered nonempty fun closed connected =>
          allowed ⟨connected, closed, some⟩

private theorem Quiet.broken {event : Event} (before : Quiet conn) (late : MessageAfterHalfClose conn event)
    (stepped : HttpServer.step nullFind conn event = some next) : ¬ NoWriteAfterShutdown next.calls := by
  have handled := Outcome.toOption_eq_some_iff.mp stepped
  match event, late with
  | .readable (.received bytes) answer, ⟨connected, closed, nonempty⟩ =>
      rcases readable_cases before.valid handled with ⟨failed, _⟩ | ⟨empty, _⟩ |
        ⟨_, inputBuffer, n, request, _, text, made, last, _, _, _, _, _, answered⟩
      · cases failed
      · cases empty
        exact absurd rfl nonempty
      · have quiet : Quiet ({ conn with inputBuffer }.setReq request) := before.received
        exact answered_after_halfClose quiet closed connected answered

theorem step_adds {event : Event} (valid : conn.outputBuffer.Valid)
    (stepped : HttpServer.step nullFind conn event = some next) :
    next.outputBuffer.Valid ∧ ∃ made, next.calls = conn.calls ++ made := by
  have handled := Outcome.toOption_eq_some_iff.mp stepped
  cases event with
  | writable result =>
      obtain ⟨made, wrote, _⟩ := TcpConnection.handleWrite_wrote valid handled
      exact ⟨wrote.valid, made, wrote.calls⟩
  | destroyed =>
      obtain ⟨calls, _, _, output, _⟩ := connectDestroyed_effect handled
      exact ⟨output ▸ valid, _, calls⟩
  | readable result answer =>
      rcases readable_cases valid handled with ⟨_, rfl⟩ | ⟨_, inputBuffer, _, _, closed⟩ |
        ⟨_, _, _, _, _, _, _, _, _, _, _, _, _, answered⟩
      · exact ⟨valid, [.getSocketError], rfl⟩
      · obtain ⟨calls, _, _, output⟩ := TcpConnection.handleClose_effect closed
        exact ⟨output ▸ valid, _, calls⟩
      · exact ⟨answered.valid, _, answered.calls⟩

theorem established_quiet (sockfd : Nat) : Quiet (established sockfd) :=
  ⟨Buffer.fresh_valid, nofun, nofun, List.pairwise_singleton _ _⟩

/-- In a run of one connection nothing is written after `::shutdown` exactly
when no message arrives, in state `Connected`, after the half-close. -/
theorem noWriteAfterShutdown_iff (nullFind : NullFind) (sockfd : Nat) (events : List Event)
    {final : TcpConnection} (ran : run (step nullFind) (established sockfd) events = some final) :
    NoWriteAfterShutdown final.calls ↔
      Along (step nullFind) (fun conn event => ¬ MessageAfterHalfClose conn event)
        (established sockfd) events := by
  refine run_good_iff Quiet (fun conn => NoWriteAfterShutdown conn.calls)
    (fun conn => conn.outputBuffer.Valid ∧ ¬ NoWriteAfterShutdown conn.calls)
    (established_quiet sockfd) (fun _ quiet => quiet.ordered) (fun _ lost => lost.2) ?_ ?_ ?_ ran
  · exact fun conn event next quiet allowed stepped => quiet.step allowed stepped
  · intro conn event next quiet late stepped
    have message := not_not.mp late
    exact ⟨(step_adds quiet.valid stepped).1, quiet.broken message stepped⟩
  · rintro conn event next ⟨valid, lost⟩ stepped
    obtain ⟨nextValid, made, calls⟩ := step_adds valid stepped
    refine ⟨nextValid, fun ordered => lost ?_⟩
    rw [calls] at ordered
    exact (List.pairwise_append.mp ordered).1

theorem noWriteAfterShutdown_iff_whole :
    let events : List Event := [.readable (.received (ascii "GET / HTTP/1.1\r\nHost: a\r\n\r\n")) (.wrote 153),
      .writable .failed, .readable (.received []) .failed, .destroyed]
    ∃ final, run (step .undefined) (established 5) events = some final ∧
      NoWriteAfterShutdown final.calls := by
  intro events
  have ends : (run (step .undefined) (established 5) events).isSome = true := by decide +kernel
  obtain ⟨final, ran⟩ := Option.isSome_iff_exists.mp ends
  exact ⟨final, ran, (noWriteAfterShutdown_iff .undefined 5 events ran).mpr (by decide +kernel)⟩

/-- The head of a request is answered by 400 and the half-close; the rest of it
is written to as well. -/
theorem write_after_shutdown :
    let events : List Event := [.readable (.received (ascii "GET / HTTP/1.1\r\n")) (.wrote 28),
      .readable (.received (ascii "Host: a\r\n\r\n")) (.wrote 153)]
    ∃ final, run (step .undefined) (established 5) events = some final ∧
      ¬ NoWriteAfterShutdown final.calls := by
  intro events
  have ends : (run (step .undefined) (established 5) events).map
      (fun final => decide (NoWriteAfterShutdown final.calls)) = some false := by decide +kernel
  obtain ⟨final, ran, late⟩ := Option.map_eq_some_iff.mp ends
  exact ⟨final, ran, of_decide_eq_false late⟩

end HttpServer

end NutServer.Net
