import NutServer.Library.Simulation
import NutServer.Net.TcpConnectionCalls

/-!
# A connection by itself

The member functions that the loop, the functors and the application call, as
one step function, and what it leaves to the server: the index of the channel.
-/

set_option autoImplicit false

namespace NutServer.Net

open Library

/-- What the connection makes of its channel by a call. -/
def Channel.after (channel : Channel) : Call → Channel
  | .updateChannel events => { channel with events }
  | .send _ | .write _ _ | .shutdown _ | .getSocketError | .removeChannel | .closeCallback => channel

namespace TcpConnection

inductive Operation where
  | handleRead (result : ReadResult)
  | handleWrite (result : WriteResult)
  | handleClose
  | handleError
  | send (messages : Bytes) (result : WriteResult)
  | sendInLoop (messages : Bytes) (result : WriteResult)
  | shutdown
  | shutdownInLoop
  | closeConnection
  | closeConnectionInLoop
  | connectDestroyed
  deriving DecidableEq, Repr

/-- What the callbacks of the application do are operations of their own. -/
def operate (conn : TcpConnection) : Operation → Outcome TcpConnection
  | .handleRead result => conn.handleRead (fun conn => return conn) result
  | .handleWrite result => conn.handleWrite result
  | .handleClose => conn.handleClose
  | .handleError => return conn.handleError
  | .send messages result => conn.send messages result
  | .sendInLoop messages result => conn.sendInLoop messages result
  | .shutdown => return conn.shutdown
  | .shutdownInLoop => return conn.shutdownInLoop
  | .closeConnection => return conn.closeConnection
  | .closeConnectionInLoop => conn.closeConnectionInLoop
  | .connectDestroyed => conn.connectDestroyed fun conn => conn

def operateStep (conn : TcpConnection) (operation : Operation) : Option TcpConnection :=
  (conn.operate operation).toOption

/-- The text that an operation adds to what is to be written. -/
def taken (conn : TcpConnection) : Operation → Bytes
  | .send messages _ => if conn.state = .connected then messages else []
  | .sendInLoop messages _ => messages
  | .handleRead _ | .handleWrite _ | .handleClose | .handleError | .shutdown | .shutdownInLoop
  | .closeConnection | .closeConnectionInLoop | .connectDestroyed => []

def allTaken : TcpConnection → List Operation → Bytes
  | _, [] => []
  | conn, operation :: rest =>
      conn.taken operation ++ (conn.operateStep operation).elim [] fun next => next.allTaken rest

/-- The system calls of an operation report no more than there was room for or
was offered. -/
def Honest (conn : TcpConnection) : Operation → Prop
  | .handleRead result => result.size ≤ conn.inputBuffer.writableBytes + Buffer.extrabufSize
  | .handleWrite result => conn.channel.isWriting = true → result.nWrote ≤ conn.outputBuffer.readableBytes
  | .handleClose | .handleError | .send _ _ | .sendInLoop _ _ | .shutdown | .shutdownInLoop
  | .closeConnection | .closeConnectionInLoop | .connectDestroyed => True

/-- The connection that `newConnection` makes for a descriptor. -/
def opened (sockfd : Nat) : TcpConnection :=
  ({ new sockfd with state := .connected } : TcpConnection).updateChannel (Channel.new sockfd).enableReading

theorem connectEstablished_new (sockfd : Nat) :
    (new sockfd).connectEstablished (fun conn => conn) = .ok (opened sockfd) := rfl

def setIndex (conn : TcpConnection) (index : Int) : TcpConnection :=
  { conn with channel := { conn.channel with index } }

section Index

variable {conn next : TcpConnection} {index : Int}

@[simp] theorem setIndex_setIndex (other : Int) : (conn.setIndex index).setIndex other = conn.setIndex other := rfl

@[simp] theorem setIndex_self : conn.setIndex conn.channel.index = conn := rfl

@[simp] theorem isWriting_setIndex : (conn.setIndex index).channel.isWriting = conn.channel.isWriting := rfl

theorem shutdownInLoop_setIndex : (conn.setIndex index).shutdownInLoop = conn.shutdownInLoop.setIndex index := by
  unfold shutdownInLoop
  rw [isWriting_setIndex]
  split_ifs <;> rfl

private theorem queueRest_setIndex (messages : Bytes) (nWrote : Nat) :
    (conn.setIndex index).queueRest messages nWrote =
      (conn.queueRest messages nWrote).map (setIndex · index) := by
  by_cases left : nWrote < messages.length
  · rw [queueRest, queueRest, if_pos left, if_pos left, Outcome.map_bind]
    change conn.outputBuffer.append (messages.drop nWrote) >>= _ = _
    congr 1
    funext outputBuffer
    let queued : TcpConnection := { conn with outputBuffer }
    change (if conn.channel.isWriting then (return queued.setIndex index : Outcome TcpConnection)
      else if conn.state = .disconnetcing then return (queued.enableWriting.setIndex index).shutdownInLoop
      else return queued.enableWriting.setIndex index) =
        Except.map (setIndex · index) (if conn.channel.isWriting then (return queued : Outcome TcpConnection)
          else if conn.state = .disconnetcing then return queued.enableWriting.shutdownInLoop
          else return queued.enableWriting)
    rw [shutdownInLoop_setIndex]
    split_ifs <;> rfl
  · rw [queueRest, queueRest, if_neg left, if_neg left]
    rfl

private theorem sendInLoop_setIndex (messages : Bytes) (result : WriteResult) :
    (conn.setIndex index).sendInLoop messages result =
      (conn.sendInLoop messages result).map (setIndex · index) := by
  change (if !conn.channel.isWriting ∧ conn.outputBuffer.readableBytes = 0 then
      ((conn.call (.write messages result)).setIndex index).queueRest messages result.nWrote
    else (conn.setIndex index).queueRest messages 0) = _
  rw [queueRest_setIndex, queueRest_setIndex, sendInLoop]
  split_ifs <;> rfl

private theorem send_setIndex (messages : Bytes) (result : WriteResult) :
    (conn.setIndex index).send messages result = (conn.send messages result).map (setIndex · index) := by
  change (if conn.state = .connected then
      ((conn.call (.send messages)).setIndex index).sendInLoop messages result
    else return (conn.call (.send messages)).setIndex index) = _
  rw [sendInLoop_setIndex, send]
  change _ = Except.map _ (if conn.state = .connected then _ else _)
  split_ifs <;> rfl

private theorem handleClose_setIndex : (conn.setIndex index).handleClose = conn.handleClose.map (setIndex · index) := by
  rw [handleClose, handleClose, Outcome.map_bind]
  rfl

private theorem handleRead_setIndex (result : ReadResult) :
    (conn.setIndex index).handleRead (fun conn => return conn) result =
      (conn.handleRead (fun conn => return conn) result).map (setIndex · index) := by
  rw [handleRead, handleRead, Outcome.map_bind]
  change conn.inputBuffer.readFd result >>= _ = _
  congr 1
  funext received
  change (if 0 < received.2 then (return ({ conn with inputBuffer := received.1 } : TcpConnection).setIndex index)
    else if received.2 = 0 then (({ conn with inputBuffer := received.1 } : TcpConnection).setIndex index).handleClose
    else return _) = Except.map _ (if 0 < received.2 then _ else _)
  rw [handleClose_setIndex]
  split_ifs <;> rfl

private theorem retrieveWritten_setIndex (nWrote : Nat) :
    (conn.setIndex index).retrieveWritten nWrote = (conn.retrieveWritten nWrote).map (setIndex · index) := by
  rw [retrieveWritten, retrieveWritten, Outcome.map_bind]
  change conn.outputBuffer.retrieve nWrote >>= _ = _
  congr 1
  funext outputBuffer
  rw [apply_ite (Except.map (setIndex · index))]
  rfl

private theorem handleWrite_setIndex (result : WriteResult) :
    (conn.setIndex index).handleWrite result = (conn.handleWrite result).map (setIndex · index) := by
  rw [handleWrite, handleWrite, isWriting_setIndex, apply_ite (Except.map (setIndex · index)), Outcome.map_bind]
  congr 1
  change Buffer.bytesBetween conn.outputBuffer.buffer conn.outputBuffer.peek _ >>= _ = _
  congr 1
  funext offered
  rw [apply_ite (Except.map (setIndex · index)), ← retrieveWritten_setIndex]
  rfl

private theorem connectDestroyed_setIndex : (conn.setIndex index).connectDestroyed (fun conn => conn) =
    (conn.connectDestroyed fun conn => conn).map (setIndex · index) := by
  rw [connectDestroyed, connectDestroyed, Outcome.map_bind]
  rfl

private theorem closeConnection_setIndex : (conn.setIndex index).closeConnection = conn.closeConnection.setIndex index := by
  rw [closeConnection, closeConnection, apply_ite (setIndex · index)]
  rfl

private theorem closeConnectionInLoop_setIndex :
    (conn.setIndex index).closeConnectionInLoop = conn.closeConnectionInLoop.map (setIndex · index) := by
  rw [closeConnectionInLoop, closeConnectionInLoop, apply_ite (Except.map (setIndex · index)), handleClose_setIndex]
  rfl

/-- No member function looks at the index of the channel. -/
theorem operate_setIndex (operation : Operation) :
    (conn.setIndex index).operate operation = (conn.operate operation).map (setIndex · index) := by
  cases operation with
  | handleRead result => exact handleRead_setIndex result
  | handleWrite result => exact handleWrite_setIndex result
  | handleClose => exact handleClose_setIndex
  | handleError => rfl
  | send messages result => exact send_setIndex messages result
  | sendInLoop messages result => exact sendInLoop_setIndex messages result
  | shutdown | shutdownInLoop => exact congrArg Except.ok shutdownInLoop_setIndex
  | closeConnection => exact congrArg Except.ok closeConnection_setIndex
  | closeConnectionInLoop => exact closeConnectionInLoop_setIndex
  | connectDestroyed => exact connectDestroyed_setIndex

theorem run_setIndex {operations : List Operation} {final : TcpConnection}
    (ran : run operateStep (conn.setIndex index) operations = some final) :
    ∃ other, run operateStep conn operations = some other ∧ other.setIndex final.channel.index = final := by
  have beside : Alike (fun indexed plain : TcpConnection => indexed = plain.setIndex indexed.channel.index)
      (run operateStep (conn.setIndex index) operations) (run operateStep conn operations) := by
    have follows : ∀ (indexed plain : TcpConnection) (operation : Operation),
        indexed = plain.setIndex indexed.channel.index → True →
        Alike (fun indexed plain : TcpConnection => indexed = plain.setIndex indexed.channel.index)
          (operateStep indexed operation) (operateStep plain operation) := by
      intro indexed plain operation same _
      rw [same, operateStep, operateStep, operate_setIndex]
      cases plain.operate operation with
      | error fault => exact .none
      | ok next => exact .some rfl
    exact run_alike follows rfl (along_of_forall fun _ _ => trivial)
  rw [ran] at beside
  obtain ⟨other, ranOther, same⟩ := beside.of_left
  exact ⟨other, ranOther, same.symm⟩

theorem allTaken_setIndex {operations : List Operation} :
    (conn.setIndex index).allTaken operations = conn.allTaken operations := by
  induction operations generalizing conn index with
  | nil => rfl
  | cons operation rest ih =>
      have taken : (conn.setIndex index).taken operation = conn.taken operation := by
        cases operation <;> rfl
      rw [allTaken, allTaken, taken, operateStep, operateStep, operate_setIndex]
      cases conn.operate operation with
      | error fault => rfl
      | ok next => exact congrArg (_ ++ ·) ih

end Index

/-- The calls that were made, and what they made of the channel. -/
def Recorded (conn next : TcpConnection) : Prop :=
  ∃ made, next.calls = conn.calls ++ made ∧ next.channel = made.foldl Channel.after conn.channel

section Recorded

variable {conn middle next : TcpConnection}

theorem Recorded.refl (conn : TcpConnection) : conn.Recorded conn := ⟨[], (List.append_nil _).symm, rfl⟩

theorem Recorded.trans (first : conn.Recorded middle) (second : middle.Recorded next) : conn.Recorded next := by
  obtain ⟨made, calls, channel⟩ := first
  obtain ⟨later, laterCalls, laterChannel⟩ := second
  refine ⟨made ++ later, ?_, ?_⟩
  · rw [laterCalls, calls, List.append_assoc]
  · rw [laterChannel, channel, List.foldl_append]

/-- One call, and what else of the connection it goes with. -/
theorem Recorded.single {entry : Call} (calls : next.calls = conn.calls ++ [entry])
    (channel : next.channel = conn.channel.after entry) : conn.Recorded next := ⟨[entry], calls, channel⟩

theorem Recorded.silent (calls : next.calls = conn.calls) (channel : next.channel = conn.channel) :
    conn.Recorded next := ⟨[], by rw [calls, List.append_nil], channel⟩

private theorem shutdownInLoop_recorded (conn : TcpConnection) : conn.Recorded conn.shutdownInLoop := by
  unfold shutdownInLoop
  split_ifs
  · exact .refl conn
  · exact .single rfl rfl

private theorem queueRest_recorded {messages : Bytes} {nWrote : Nat} (queued : conn.queueRest messages nWrote = .ok next) :
    conn.Recorded next := by
  by_cases left : nWrote < messages.length
  · rw [queueRest, if_pos left] at queued
    obtain ⟨outputBuffer, -, queued⟩ := Outcome.bind_eq_ok_iff.mp queued
    dsimp only at queued
    split_ifs at queued
    · cases queued
      exact .silent rfl rfl
    · cases queued
      exact .trans (.single rfl rfl) (shutdownInLoop_recorded _)
    · cases queued
      exact .single rfl rfl
  · rw [queueRest, if_neg left] at queued
    cases queued
    exact .refl conn

private theorem sendInLoop_recorded {messages : Bytes} {result : WriteResult}
    (sent : conn.sendInLoop messages result = .ok next) : conn.Recorded next := by
  unfold sendInLoop at sent
  split_ifs at sent
  · exact .trans (.single rfl rfl) (queueRest_recorded sent)
  · exact queueRest_recorded sent

private theorem handleClose_recorded (closed : conn.handleClose = .ok next) : conn.Recorded next := by
  obtain ⟨_, -, same⟩ := Outcome.bind_eq_ok_iff.mp closed
  cases same
  have disabled : conn.Recorded conn.disableAll := .single rfl rfl
  exact disabled.trans (.single rfl rfl)

private theorem retrieveWritten_recorded {nWrote : Nat} (retrieved : conn.retrieveWritten nWrote = .ok next) :
    conn.Recorded next := by
  obtain ⟨outputBuffer, -, retrieved⟩ := Outcome.bind_eq_ok_iff.mp retrieved
  dsimp only at retrieved
  split_ifs at retrieved
  · cases retrieved
    exact .single rfl rfl
  · cases retrieved
    exact .silent rfl rfl

private theorem handleWrite_recorded {result : WriteResult} (written : conn.handleWrite result = .ok next) :
    conn.Recorded next := by
  cases writing : conn.channel.isWriting with
  | true =>
      rw [handleWrite, if_pos writing] at written
      obtain ⟨offered, -, written⟩ := Outcome.bind_eq_ok_iff.mp written
      have wrote : conn.Recorded (conn.call (.write offered result)) := .single rfl rfl
      refine wrote.trans ?_
      dsimp only at written
      split_ifs at written
      · exact retrieveWritten_recorded written
      · cases written
        exact .refl _
  | false =>
      rw [handleWrite_of_quiet writing] at written
      cases written
      exact .refl conn

theorem operate_recorded {operation : Operation} (operated : conn.operate operation = .ok next) :
    conn.Recorded next := by
  cases operation with
  | handleRead result =>
      obtain ⟨received, -, operated⟩ := Outcome.bind_eq_ok_iff.mp operated
      have read : conn.Recorded { conn with inputBuffer := received.1 } := .silent rfl rfl
      refine read.trans ?_
      dsimp only at operated
      split_ifs at operated
      · cases operated
        exact .refl _
      · exact handleClose_recorded operated
      · cases operated
        exact .single rfl rfl
  | handleWrite result => exact handleWrite_recorded operated
  | handleClose => exact handleClose_recorded operated
  | handleError =>
      cases operated
      exact .single rfl rfl
  | send messages result =>
      have called : conn.Recorded (conn.call (.send messages)) := .single rfl rfl
      refine called.trans ?_
      change (if conn.state = .connected then _ else _) = _ at operated
      split_ifs at operated
      · exact sendInLoop_recorded operated
      · cases operated
        exact .refl _
  | sendInLoop messages result => exact sendInLoop_recorded operated
  | shutdown | shutdownInLoop =>
      cases operated
      exact shutdownInLoop_recorded conn
  | closeConnection =>
      cases operated
      unfold closeConnection
      split_ifs
      · exact .silent rfl rfl
      · exact .refl conn
  | closeConnectionInLoop =>
      change (if conn.canClose then _ else _) = _ at operated
      split_ifs at operated
      · exact handleClose_recorded operated
      · cases operated
        exact .refl conn
  | connectDestroyed =>
      obtain ⟨_, -, same⟩ := Outcome.bind_eq_ok_iff.mp operated
      cases same
      have disabled : conn.Recorded ({ conn with state := .disconnected } : TcpConnection).disableAll := .single rfl rfl
      exact disabled.trans (.single rfl rfl)

end Recorded

section Stream

variable {conn next : TcpConnection}

theorem opened_buffered (sockfd : Nat) : (opened sockfd).Buffered := ⟨Buffer.fresh_valid, Buffer.fresh_valid⟩

theorem opened_stream (sockfd : Nat) : (opened sockfd).stream = [] := by
  simp [stream, opened, updateChannel, call, new, Call.accepted, Buffer.fresh_readable]

private theorem handleClose_stream (buffered : conn.Buffered) (closed : conn.handleClose = .ok next) :
    next.Buffered ∧ next.stream = conn.stream := by
  obtain ⟨_, -, same⟩ := Outcome.bind_eq_ok_iff.mp closed
  cases same
  refine ⟨⟨buffered.input, buffered.output⟩, ?_⟩
  simp [stream, disableAll, updateChannel, call, Call.accepted]

theorem shutdownInLoop_stream (buffered : conn.Buffered) :
    conn.shutdownInLoop.Buffered ∧ conn.shutdownInLoop.stream = conn.stream := by
  unfold shutdownInLoop
  split_ifs
  · exact ⟨buffered, rfl⟩
  · refine ⟨⟨buffered.input, buffered.output⟩, ?_⟩
    simp [stream, call, Call.accepted]

private theorem sendInLoop_stream (buffered : conn.Buffered) {messages : Bytes} {result : WriteResult}
    (sent : conn.sendInLoop messages result = .ok next) : next.Buffered ∧ next.stream = conn.stream ++ messages := by
  obtain ⟨other, made, same, wrote, shown, -⟩ := sendInLoop_spec conn buffered.output messages result
  cases sent.symm.trans same
  refine ⟨⟨?_, wrote.valid⟩, shown⟩
  rw [wrote.same.inputBuffer]
  exact buffered.input

theorem send_stream (buffered : conn.Buffered) {messages : Bytes} {result : WriteResult}
    (sent : conn.send messages result = .ok next) :
    next.Buffered ∧ next.stream = conn.stream ++ if conn.state = .connected then messages else [] := by
  have silent : (conn.call (.send messages)).stream = conn.stream := by
    simp [stream, call, Call.accepted]
  change (if conn.state = .connected then _ else _) = _ at sent
  rw [← silent]
  split_ifs at sent ⊢
  · have called : (conn.call (.send messages)).Buffered := ⟨buffered.input, buffered.output⟩
    exact sendInLoop_stream called sent
  · cases sent
    exact ⟨⟨buffered.input, buffered.output⟩, (List.append_nil _).symm⟩

/-- What was accepted and what waits grow by what the operation takes. -/
theorem operate_stream {operation : Operation} (buffered : conn.Buffered) (honest : conn.Honest operation)
    (operated : conn.operate operation = .ok next) :
    next.Buffered ∧ next.stream = conn.stream ++ conn.taken operation := by
  cases operation with
  | handleRead result =>
      rw [taken, List.append_nil]
      cases result with
      | failed =>
          cases operated
          refine ⟨⟨buffered.input, buffered.output⟩, ?_⟩
          simp [stream, handleError, call, Call.accepted]
      | received bytes =>
          obtain ⟨inputBuffer, read, valid, -⟩ := Buffer.readFd_spec buffered.input honest
          rw [operate, handleRead, read, Outcome.ok_bind] at operated
          have received : ({ conn with inputBuffer } : TcpConnection).Buffered := ⟨valid, buffered.output⟩
          dsimp only at operated
          split_ifs at operated
          · cases operated
            exact ⟨received, rfl⟩
          · have closed := handleClose_stream received operated
            exact closed
          · cases operated
            refine ⟨⟨valid, buffered.output⟩, ?_⟩
            simp [stream, handleError, call, Call.accepted]
  | handleWrite result =>
      rw [taken, List.append_nil]
      cases writing : conn.channel.isWriting with
      | true =>
          obtain ⟨other, made, written, wrote, shown⟩ := handleWrite_spec buffered.output (honest writing)
          cases operated.symm.trans written
          refine ⟨⟨?_, wrote.valid⟩, shown⟩
          rw [wrote.same.inputBuffer]
          exact buffered.input
      | false =>
          cases operated.symm.trans (handleWrite_of_quiet writing)
          exact ⟨buffered, rfl⟩
  | handleClose =>
      rw [taken, List.append_nil]
      exact handleClose_stream buffered operated
  | handleError =>
      cases operated
      refine ⟨⟨buffered.input, buffered.output⟩, ?_⟩
      simp [stream, handleError, call, Call.accepted, taken]
  | send messages result => exact send_stream buffered operated
  | sendInLoop messages result => exact sendInLoop_stream buffered operated
  | shutdown | shutdownInLoop =>
      cases operated
      rw [taken, List.append_nil]
      exact shutdownInLoop_stream buffered
  | closeConnection =>
      cases operated
      rw [taken, List.append_nil, closeConnection]
      split_ifs
      · exact ⟨⟨buffered.input, buffered.output⟩, rfl⟩
      · exact ⟨buffered, rfl⟩
  | closeConnectionInLoop =>
      change (if conn.canClose then _ else _) = _ at operated
      rw [taken, List.append_nil]
      split_ifs at operated
      · exact handleClose_stream buffered operated
      · cases operated
        exact ⟨buffered, rfl⟩
  | connectDestroyed =>
      obtain ⟨_, -, same⟩ := Outcome.bind_eq_ok_iff.mp operated
      cases same
      refine ⟨⟨buffered.input, buffered.output⟩, ?_⟩
      simp [stream, disableAll, updateChannel, call, Call.accepted, taken]

theorem allTaken_append {first second : List Operation} {middle : TcpConnection}
    (ran : run operateStep conn first = some middle) :
    conn.allTaken (first ++ second) = conn.allTaken first ++ middle.allTaken second := by
  induction first generalizing conn with
  | nil =>
      cases ran
      rfl
  | cons operation rest ih =>
      obtain ⟨next, stepped, ranRest⟩ := Option.bind_eq_some_iff.mp ran
      rw [List.cons_append, allTaken, allTaken, stepped, Option.elim_some, Option.elim_some, ih ranRest,
        List.append_assoc]

end Stream

end TcpConnection

end NutServer.Net
