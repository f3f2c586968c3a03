import NutServer.Net.TcpServerForgotten

/-!
# The faults of a server

A step of the server follows no pointer to a deleted connection, and the only
assertions that can fail are those on the state of a connection that is closed
or destroyed, and on its name.
-/

set_option autoImplicit false

namespace NutServer.Net

open Library

namespace TcpServer

/-- What a step is about to do. -/
def effect (server : TcpServer) : Event → Effect
  | .handle reports => server.agenda.head?.elim .rests fun entry => callbackEffect reports entry.1 entry.2
  | .call _ => server.nextFunctor.elim .rests server.functorEffect
  | .loop _ | .poll _ | .request _ _ | .foreign _ _ | .push _ | .release _ => .rests

/-- A connection that is closed has to be connected and listed, and one that is
destroyed has to be connected. -/
def Admits (server : TcpServer) : Effect → Prop
  | .closes id => ∀ connection ∈ server.conns[id]?,
      connection.conn.state = .connected ∧ connection.name ∈ server.connections
  | .destroys id => ∀ connection ∈ server.conns[id]?, connection.conn.state = .connected
  | .keeps _ | .accepts | .rests => True

instance decidableAdmits (server : TcpServer) : ∀ effect : Effect, Decidable (server.Admits effect)
  | .closes id => inferInstanceAs (Decidable (∀ connection ∈ server.conns[id]?,
      connection.conn.state = .connected ∧ connection.name ∈ server.connections))
  | .destroys id => inferInstanceAs (Decidable (∀ connection ∈ server.conns[id]?,
      connection.conn.state = .connected))
  | .keeps _ | .accepts | .rests => isTrue trivial

variable {server next : TcpServer} {outcome : Outcome TcpServer} {fault : Fault} {event : Event}

private theorem error_iff_of_ok {admitted : Prop} (performed : outcome = .ok next) (holds : admitted) :
    outcome = .error fault ↔ fault = .assertion ∧ ¬ admitted := by
  constructor
  · intro failed
    cases performed.symm.trans failed
  · rintro ⟨-, refused⟩
    exact absurd holds refused

private theorem ite_eq_error_iff {condition : Prop} [Decidable condition] :
    (if condition then .ok next else .error .assertion : Outcome TcpServer) = .error fault ↔
      fault = .assertion ∧ ¬ condition := by
  by_cases holds : condition
  · rw [if_pos holds]
    exact error_iff_of_ok rfl holds
  · rw [if_neg holds]
    exact ⟨fun failed => ⟨(Except.error.inj failed).symm, holds⟩, fun both => by rw [both.1]⟩

private theorem Does.error_iff {revived : Bool} {effect : Effect} (does : server.Does revived effect outcome) :
    outcome = .error fault ↔ fault = .assertion ∧ ¬ server.Admits effect := by
  cases does with
  | kept id old new made epoller is found alive kept tracks quiet dead result =>
      subst is
      exact error_iff_of_ok result trivial
  | closes id old conn index epoller is found alive calls state buffered known tracks calm result =>
      subst is
      have admits : server.Admits (.closes id) ↔ old.conn.state = .connected ∧ old.name ∈ server.connections := by
        simp [Admits, found]
      rw [result, admits]
      exact ite_eq_error_iff
  | destroys id old epoller is found alive tracks idle calm result =>
      subst is
      have admits : server.Admits (.destroys id) ↔ old.conn.state = .connected := by simp [Admits, found]
      rw [result, admits]
      exact ite_eq_error_iff
  | accepts conn epoller is known state calls buffered tracks calm result =>
      subst is
      exact error_iff_of_ok result trivial
  | rests loop is same calm result =>
      subst is
      exact error_iff_of_ok result trivial

/-- A loop that is left can be entered. -/
def Restful (server : TcpServer) : Prop := server.loop.Orderly fun _ => false

theorem Restful.queued {func : PendingFunctor} (restful : server.Restful)
    (queued : server.loop.Queued func next.loop) : next.Restful := queued.orderly restful (.inr rfl)

/-- The only functor that the functions of the server queue is the one that
destroys the connection they close. -/
theorem Does.queue {revived : Bool} {effect : Effect} (does : server.Does revived effect outcome)
    (performed : outcome = .ok next) : next.callers = server.callers ∧
      (EventLoop.SameQueue server.loop next.loop ∨ ∃ id, server.loop.Queued (.connectDestroyed id) next.loop) := by
  cases does with
  | kept id old new made epoller is found alive kept tracks quiet dead result =>
      cases result.symm.trans performed
      exact ⟨rfl, .inl ⟨rfl, rfl, rfl, rfl⟩⟩
  | closes id old conn index epoller is found alive calls state buffered known tracks calm result =>
      rw [result] at performed
      split_ifs at performed
      cases performed
      exact ⟨rfl, .inr ⟨id, EventLoop.queueInLoop_queued server.loop (.connectDestroyed id)⟩⟩
  | destroys id old epoller is found alive tracks idle calm result =>
      rw [result] at performed
      split_ifs at performed
      cases performed
      exact ⟨rfl, .inl ⟨rfl, rfl, rfl, rfl⟩⟩
  | accepts conn epoller is known state calls buffered tracks calm result =>
      cases result.symm.trans performed
      exact ⟨rfl, .inl ⟨rfl, rfl, rfl, rfl⟩⟩
  | rests loop is same calm result =>
      cases result.symm.trans performed
      exact ⟨rfl, .inl same⟩

private theorem Does.restful {revived : Bool} {effect : Effect} (does : server.Does revived effect outcome)
    (restful : server.Restful) (performed : outcome = .ok next) : next.Restful := by
  rcases does.queue performed with ⟨-, same | ⟨id, queued⟩⟩
  · exact same.orderly restful
  · exact restful.queued queued

/-- What holds of a server as long as no destroyed connection is watched again. -/
structure Steady (server : TcpServer) : Prop where
  sound : server.Sound
  forgotten : server.Forgotten
  restful : server.Restful

private theorem request_restful {op : Request} {result : WriteResult} (steady : server.Steady)
    (living : ∀ id, op.target = some id → server.isAlive id = true)
    (performed : server.request result op = .ok next) : next.Restful := by
  cases op with
  | send id messages => exact (send_does steady.sound (living id rfl) messages).restful steady.restful performed
  | shutdown id => exact (shutdown_does steady.sound (living id rfl)).restful steady.restful performed
  | queueInLoop =>
      cases performed
      exact steady.restful.queued (EventLoop.queueInLoop_queued server.loop _)
  | closeConnection id =>
      obtain ⟨closed, closes, -, -, -, -, loop⟩ :=
        closeConnection_forgotten steady.sound steady.forgotten (living id rfl)
      have closedRestful : closed.Restful := by
        rw [Restful, loop]
        exact steady.restful
      rw [request, closes, Outcome.ok_bind] at performed
      cases queues : server.queues (.closeConnection id) with
      | none =>
          rw [queues] at performed
          cases performed
          exact closedRestful
      | some func =>
          rw [queues] at performed
          cases performed
          exact closedRestful.queued (EventLoop.queueInLoop_queued closed.loop _)

private theorem foreign_restful {thread : Nat} {op : Request} (steady : server.Steady)
    (living : ∀ id, op.target = some id → server.isAlive id = true)
    (performed : server.foreignRequest thread op = .ok next) : next.Restful := by
  have marks : ∀ marked, server.mark op = .ok marked → marked.Restful := by
    intro marked marks
    cases op with
    | send | shutdown | queueInLoop =>
        cases marks
        exact steady.restful
    | closeConnection id =>
        obtain ⟨closed, closes, -, -, -, -, loop⟩ :=
          closeConnection_forgotten steady.sound steady.forgotten (living id rfl)
        cases closes.symm.trans marks
        rw [Restful, loop]
        exact steady.restful
  obtain ⟨marked, isMarked, performed⟩ := Outcome.bind_eq_ok_iff.mp performed
  have restful := marks marked isMarked
  cases queues : server.queues op with
  | none =>
      simp only [queues] at performed
      cases performed
      exact restful
  | some func =>
      simp only [queues] at performed
      cases performed
      exact restful

private theorem perform_restful (steady : server.Steady) (enabled : event.Enabled server)
    (performed : server.perform event = .ok next) : next.Restful := by
  cases event with
  | loop event =>
      obtain ⟨loop, loopPerformed, same⟩ := Outcome.bind_pure_eq_ok_iff.mp performed
      cases same
      exact (EventLoop.plain_spec enabled.1 enabled.2.1 loopPerformed).2.1 _ steady.restful
  | poll ready =>
      cases performed
      exact EventLoop.pollReturns_orderly
  | handle reports =>
      cases agenda : server.agenda with
      | nil => exact absurd agenda enabled.2.1
      | cons entry rest =>
          simp only [TcpServer.perform, agenda] at performed
          exact (handle_does steady.sound enabled agenda).2.restful steady.restful performed
  | call result =>
      obtain ⟨index, phase, isNext, loopPerformed⟩ := perform_call enabled
      have called : (server.loop.callNext index).Orderly fun _ => false :=
        (EventLoop.callNext_spec phase).1 _ steady.restful
      simp only [TcpServer.perform, loopPerformed, Outcome.ok_bind, isNext] at performed
      cases selected : server.loop.tempFunctors[index]? with
      | none =>
          simp only [selected] at performed
          cases performed
          exact called
      | some func =>
          simp only [selected] at performed
          exact (call_does result steady.sound phase selected).2.restful called performed
  | request op result => exact request_restful steady enabled.2 performed
  | foreign thread op => exact foreign_restful steady enabled.2.2 performed
  | push thread =>
      cases found : server.callers.lookup thread with
      | none =>
          simp only [TcpServer.perform, found] at performed
          cases performed
          exact steady.restful
      | some func =>
          simp only [TcpServer.perform, found] at performed
          cases performed
          exact steady.restful.queued (EventLoop.push_queued server.loop func (thread :: server.loop.wakers))
  | release id =>
      obtain ⟨old, found, -⟩ := (Option.any_eq_true _ _).mp enabled.1
      simp only [TcpServer.perform, release, found] at performed
      cases performed
      exact steady.restful

theorem Steady.step (steady : server.Steady) (stepped : step server event = some next)
    (calm : server.isRevival event = false) : next.Steady := by
  obtain ⟨enabled, performed⟩ := step_eq_some_iff.mp stepped
  obtain ⟨sound, forgotten⟩ := (perform_forgotten steady.sound steady.forgotten enabled performed).1 calm
  exact ⟨sound, forgotten, perform_restful steady enabled performed⟩

private theorem request_error_iff {op : Request} {result : WriteResult} (steady : server.Steady)
    (living : ∀ id, op.target = some id → server.isAlive id = true) :
    server.request result op = .error fault ↔ fault = .assertion ∧ ¬ True := by
  cases op with
  | send id messages => exact (send_does steady.sound (living id rfl) messages).error_iff
  | shutdown id => exact (shutdown_does steady.sound (living id rfl)).error_iff
  | queueInLoop => exact error_iff_of_ok rfl trivial
  | closeConnection id =>
      obtain ⟨closed, closes, -⟩ := closeConnection_forgotten steady.sound steady.forgotten (living id rfl)
      rw [request, closes, Outcome.ok_bind]
      cases server.queues (.closeConnection id) <;> exact error_iff_of_ok rfl trivial

private theorem foreign_error_iff {thread : Nat} {op : Request} (steady : server.Steady)
    (living : ∀ id, op.target = some id → server.isAlive id = true) :
    server.foreignRequest thread op = .error fault ↔ fault = .assertion ∧ ¬ True := by
  have marks : ∃ marked, server.mark op = .ok marked := by
    cases op with
    | send | shutdown | queueInLoop => exact ⟨server, rfl⟩
    | closeConnection id =>
        obtain ⟨closed, closes, -⟩ := closeConnection_forgotten steady.sound steady.forgotten (living id rfl)
        exact ⟨closed, closes⟩
  obtain ⟨marked, isMarked⟩ := marks
  rw [foreignRequest, isMarked, Outcome.ok_bind]
  cases server.queues op <;> exact error_iff_of_ok rfl trivial

/-- One step: it fails at an assertion exactly when it would close or destroy a
connection that is not connected, or is not listed. -/
theorem perform_error_iff (steady : server.Steady) (enabled : event.Enabled server) :
    server.perform event = .error fault ↔ fault = .assertion ∧ ¬ server.Admits (server.effect event) := by
  cases event with
  | loop event =>
      obtain ⟨loop, performed⟩ := EventLoop.plain_total enabled.1 enabled.2.1 steady.restful.rested
      exact error_iff_of_ok (by rw [TcpServer.perform, performed]; rfl) trivial
  | poll ready => exact error_iff_of_ok rfl trivial
  | handle reports =>
      cases agenda : server.agenda with
      | nil => exact absurd agenda enabled.2.1
      | cons entry rest =>
          obtain ⟨-, does⟩ := handle_does steady.sound enabled agenda
          simp only [TcpServer.perform, effect, agenda]
          exact does.error_iff
  | call result =>
      obtain ⟨index, phase, isNext, performed⟩ := perform_call enabled
      simp only [TcpServer.perform, effect, performed, Outcome.ok_bind, isNext]
      cases selected : server.loop.tempFunctors[index]? with
      | none => exact error_iff_of_ok rfl trivial
      | some func => exact (call_does result steady.sound phase selected).2.error_iff
  | request op result => exact request_error_iff steady enabled.2
  | foreign thread op => exact foreign_error_iff steady enabled.2.2
  | push thread =>
      rw [TcpServer.perform]
      cases server.callers.lookup thread <;> exact error_iff_of_ok rfl trivial
  | release id =>
      obtain ⟨old, found, -⟩ := (Option.any_eq_true _ _).mp enabled.1
      rw [TcpServer.perform, release, found]
      exact error_iff_of_ok rfl trivial

/-- In every run of the server with any number of other threads, up to the point
where a destroyed connection is watched again: the next step follows no pointer
to a deleted connection and leaves no memory it was given, and it fails exactly
when it would close a connection that is not connected or not listed, or destroy
one that is not connected. -/
theorem faults_iff (name : String) (residents : Residents) (runing : Bool) (events : List Event) (event : Event)
    {server final : TcpServer} (started : start name residents runing = .ok server)
    (ran : run step server events = some final)
    (calm : Along step (fun server event => server.isRevival event = false) server events)
    (enabled : event.Enabled final) (fault : Fault) :
    final.perform event = .error fault ↔ fault = .assertion ∧ ¬ final.Admits (final.effect event) := by
  have begins : server.Steady := by
    obtain ⟨sound, forgotten⟩ := start_sound started
    obtain ⟨other, same, -, -, -, -, loop, -, -⟩ := start_spec name residents runing
    cases started.symm.trans same
    refine ⟨sound, forgotten, ?_⟩
    rw [Restful, loop]
    exact EventLoop.new_orderly runing
  have steady : final.Steady :=
    run_preserves_along Steady begins (fun _ _ _ holds isCalm stepped => holds.step stepped isCalm) calm ran
  exact perform_error_iff steady enabled

/-- The loop is about to close a connection that `closeConnection` was called on. -/
def closesTwice : List Event :=
  [.loop .enterLoop, .loop .testQuit, .poll [(5, 1)], .handle ⟨.failed, .failed, some 7⟩,
    .request (.closeConnection 0) .failed, .loop .handlersDone, .loop .swap]

theorem faults_iff_closing : ∃ server final, start "nut" ⟨3, 4, 5, by decide⟩ false = .ok server ∧
    run step server closesTwice = some final ∧ ∀ fault,
      final.perform (.call .failed) = .error fault ↔
        fault = .assertion ∧ ¬ final.Admits (final.effect (.call .failed)) := by
  have reached : (start "nut" ⟨3, 4, 5, by decide⟩ false).toOption.any (fun server =>
      (run step server closesTwice).any (fun final => (Event.call .failed).Enabled final) ∧
        Along step (fun server event => server.isRevival event = false) server closesTwice) = true := by
    decide +kernel
  obtain ⟨server, started, ends, calm⟩ := exists_started reached
  obtain ⟨final, ran, enabled⟩ := (Option.any_eq_true _ _).mp ends
  exact ⟨server, final, started, ran,
    faults_iff "nut" ⟨3, 4, 5, by decide⟩ false closesTwice (.call .failed) started ran calm (of_decide_eq_true enabled)⟩

end TcpServer

end NutServer.Net
