import NutServer.Base.PrintedText
import NutServer.Net.TcpServerAccounts
import NutServer.Net.TcpServerConnections

/-!
# The names of connections

The constructor of the server prints its address and `newConnection` the number
of the connection, each into 32 bytes. The names tell the connections apart as
long as the counter, an `int`, has not reached its end.
-/

set_option autoImplicit false

namespace NutServer.Net

open Library Base

namespace TcpServer

/-- `name_ + buf` in `newConnection`. -/
def printConnName (uninitialised : Bytes) (size : uninitialised.length = 32) (name : Bytes) (nextConnId : Int) :
    Outcome Bytes := do
  let buf : RawBuffer 32 := .new uninitialised size
  let (buf, _) ← buf.snprintf 0 32 (ascii "#" ++ signed nextConnId)
  return name ++ (← buf.toStdString)

/-- A reader of the name of a connection. -/
def ofConnName (connName : Bytes) : Option (((Nat × Nat × Nat × Nat) × Nat) × Int) := do
  let (name, number) ← splitFirst (ascii "#") connName
  return (← ofHostPort name, ← integerValue number)

/-- `nextConnId_` at the accept of this connection. -/
def serial (id : Nat) : Int := (BitVec.ofInt 32 (id + 1)).toInt

private theorem increment_serial (id : Nat) : increment (serial id) = serial (id + 1) := by
  rw [increment, serial, serial, BitVec.ofInt_add, BitVec.ofInt_toInt, Nat.cast_succ, ← BitVec.ofInt_add]

private theorem natAbs_serial_le (id : Nat) : (serial id).natAbs ≤ 2 ^ 31 := by
  have low := (BitVec.ofInt 32 (id + 1)).le_two_mul_toInt
  have high := (BitVec.ofInt 32 (id + 1)).two_mul_toInt_lt
  rw [serial]
  omega

private theorem serial_of_lt {id : Nat} (early : id < 2 ^ 31 - 1) : serial id = id + 1 := by
  rw [serial, BitVec.toInt_ofInt, Int.bmod_eq_of_le] <;> omega

section Texts

variable {first second : String}

private theorem ascii_append : ascii (first ++ second) = ascii first ++ ascii second := by
  simp [ascii]

private theorem ascii_repr (value : Int) : ascii value.repr = signed value := by
  have natural (magnitude : Nat) : ascii magnitude.repr = decimal magnitude := by
    rw [Nat.repr, ascii, String.toList_ofList]
    rfl
  cases value with
  | ofNat magnitude => exact natural magnitude
  | negSucc magnitude =>
      have negative : Int.negSucc magnitude < 0 := Int.negSucc_lt_zero magnitude
      rw [signed, if_pos negative]
      exact ascii_append.trans (congrArg (ascii "-" ++ ·) (natural _))

end Texts

section Printing

/-- No number of a connection is too long for its array. -/
theorem printConnName_eq (uninitialised : Bytes) (size : uninitialised.length = 32) (name : Bytes) (id : Nat) :
    printConnName uninitialised size name (serial id) = .ok (name ++ ascii "#" ++ signed (serial id)) := by
  have short : (ascii "#" ++ signed (serial id)).length < 32 := by
    have digits : (signed (serial id)).length ≤ 10 + 1 :=
      length_signed_le (by decide) (Nat.lt_of_le_of_lt (natAbs_serial_le id) (by decide))
    rw [List.length_append, show (ascii "#").length = 1 from rfl]
    omega
  have terminated : 0 ∉ ascii "#" ++ signed (serial id) := by
    rw [List.mem_append, not_or]
    exact ⟨by decide, not_mem_signed rfl (by decide)⟩
  obtain ⟨next, printed, wrote⟩ := RawBuffer.snprintf_spec (.new uninitialised size) short
  simp only [printConnName, printed, Outcome.ok_bind, wrote.toStdString terminated, List.append_assoc]
  rfl

private theorem ofConnName_eq (addr : SockaddrIn) (value : Int) :
    ofConnName (addr.hostPort ++ ascii "#" ++ signed value) =
      some (((addr.sin_addr.1.toNat, addr.sin_addr.2.1.toNat, addr.sin_addr.2.2.1.toNat, addr.sin_addr.2.2.2.toNat),
        ntohs addr.sin_port), value) := by
  have cut : splitFirst (ascii "#") (addr.hostPort ++ ascii "#" ++ signed value) = some (addr.hostPort, signed value) :=
    splitFirst_line (addr.not_mem_hostPort rfl (by decide) (by decide))
  rw [ofConnName, cut]
  simp only [Option.bind_eq_bind, Option.bind_some, addr.ofHostPort_hostPort, (canonicalDecimal_signed value).reads]
  rfl

end Printing

section Steps

variable {server next : TcpServer} {id : Nat} {connection : Connection}

/-- The name of the server, the counter and the names of the connections. -/
def naming (server : TcpServer) : String × Int × List String :=
  (server.name, server.nextConnId, server.conns.map Connection.name)

/-- The same after one more accept. -/
def acceptedNaming (server : TcpServer) : String × Int × List String :=
  (server.name, increment server.nextConnId, server.conns.map Connection.name ++ [server.connName])

private theorem SameConns.naming (same : SameConns server next) : next.naming = server.naming := by
  rw [TcpServer.naming, same.name, same.nextConnId, same.conns]
  rfl

private theorem SameConns.acceptedNaming (same : SameConns server next) : next.acceptedNaming = server.acceptedNaming := by
  rw [TcpServer.acceptedNaming, connName, same.name, same.nextConnId, same.conns]
  rfl

/-- A connection that is put back under its name changes no name. -/
theorem store_naming {new : Connection} (found : server.conns[id]? = some connection)
    (name : new.name = connection.name) : (server.store id new).naming = server.naming := by
  have present : (server.conns.map Connection.name)[id]? = some new.name := by
    rw [List.getElem?_map, found, name]
    rfl
  obtain ⟨inside, same⟩ := List.getElem?_eq_some_iff.mp present
  have names : (server.conns.set id new).map Connection.name = server.conns.map Connection.name := by
    rw [List.map_set, ← same, List.set_getElem_self]
  exact Prod.ext rfl (Prod.ext rfl names)

private theorem Performs.naming {called : Option (Nat × TcpConnection.Operation)} (performs : Performs server next called) :
    next.naming = server.naming ∨ next.naming = server.acceptedNaming := by
  cases performs with
  | operates before called behind =>
      apply Or.inl
      obtain ⟨old, conn, index, found, -, same⟩ :=
        inConnection_conns (fun _ _ => TcpConnection.operate_recorded) called
      rw [behind.naming, same.naming, ← before.naming]
      exact store_naming found rfl
  | accepts before accepted =>
      apply Or.inr
      obtain ⟨index, same⟩ := newConnection_conns accepted
      rw [← before.acceptedNaming, same.naming, TcpServer.naming, List.map_append]
      rfl
  | @releases id released =>
      apply Or.inl
      cases found : server.conns[id]? with
      | none =>
          rw [release, found] at released
          cases released
      | some connection =>
          rw [release, found] at released
          cases released
          exact store_naming found rfl
  | rests same => exact .inl same.naming

end Steps

section Runs

variable {name : String} {server next final : TcpServer} {events : List Event}

/-- The connections have their serial numbers behind the name of the server. -/
structure Named (name : String) (server : TcpServer) : Prop where
  own : server.name = name
  nextConnId : server.nextConnId = serial server.conns.length
  names : server.conns.map Connection.name =
    (List.range server.conns.length).map fun id => name ++ "#" ++ (serial id).repr

theorem Named.kept (named : server.Named name) (same : next.naming = server.naming) : next.Named name := by
  obtain ⟨sameName, counter, names⟩ : next.name = server.name ∧ next.nextConnId = server.nextConnId ∧
      next.conns.map Connection.name = server.conns.map Connection.name := by
    simpa only [naming, Prod.mk.injEq] using same
  have count : next.conns.length = server.conns.length := by
    simpa only [List.length_map] using congrArg List.length names
  constructor
  · exact sameName.trans named.own
  · rw [counter, count]
    exact named.nextConnId
  · rw [names, count]
    exact named.names

theorem Named.accepted (named : server.Named name) (same : next.naming = server.acceptedNaming) :
    next.Named name := by
  obtain ⟨sameName, counter, names⟩ : next.name = server.name ∧ next.nextConnId = increment server.nextConnId ∧
      next.conns.map Connection.name = server.conns.map Connection.name ++ [server.connName] := by
    simpa only [naming, acceptedNaming, Prod.mk.injEq] using same
  have count : next.conns.length = server.conns.length + 1 := by
    simpa only [List.length_map, List.length_append, List.length_singleton] using congrArg List.length names
  constructor
  · exact sameName.trans named.own
  · rw [counter, count, named.nextConnId, increment_serial]
  · rw [names, count, named.names, List.range_succ, List.map_append, connName, named.own, named.nextConnId]
    rfl

private theorem Named.at_index (named : server.Named name) {id : Nat} {connection : Connection}
    (found : server.conns[id]? = some connection) : connection.name = name ++ "#" ++ (serial id).repr := by
  have present : (server.conns.map Connection.name)[id]? = some connection.name := by
    rw [List.getElem?_map, found]
    rfl
  have inside : id < server.conns.length := (List.getElem?_eq_some_iff.mp found).1
  rw [named.names, List.getElem?_map, List.getElem?_range inside] at present
  exact (Option.some.inj present).symm

private theorem run_named {residents : Residents} {runing : Bool} (started : start name residents runing = .ok server)
    (ran : run step server events = some final) : final.Named name := by
  have first : server.Named name := by
    obtain ⟨_, -, started⟩ := Outcome.bind_eq_ok_iff.mp started
    obtain ⟨_, -, started⟩ := Outcome.bind_eq_ok_iff.mp started
    obtain ⟨_, -, started⟩ := Outcome.bind_eq_ok_iff.mp started
    cases started
    exact ⟨rfl, rfl, rfl⟩
  apply run_preserves (Named name) first _ ran
  intro server event next named stepped
  obtain ⟨-, performed⟩ := step_eq_some_iff.mp stepped
  rcases (perform_performs performed).naming with kept | accepted
  · exact named.kept kept
  · exact named.accepted accepted

/-- The connections of a server in every run in which `nextConnId_` stays an `int`:
the arrays of `newConnection` and of the constructor give the name, the address,
the port and the number are read back from it, and no two connections share one. -/
theorem names_read (listenAddr : SockaddrIn) (first second : Bytes) (size : first.length = 32)
    (isSize : second.length = 32) (residents : Residents) (runing : Bool) (events : List Event)
    (named : listenAddr.getAddrString first size = .ok (ascii name))
    (started : start name residents runing = .ok server) (ran : run step server events = some final)
    (fewer : final.conns.length < 2 ^ 31 - 1)
    (id : Nat) (connection : Connection) (found : final.conns[id]? = some connection) :
    printConnName second isSize (ascii name) (id + 1) = .ok (ascii connection.name) ∧
      ofConnName (ascii connection.name) =
        some (((listenAddr.sin_addr.1.toNat, listenAddr.sin_addr.2.1.toNat, listenAddr.sin_addr.2.2.1.toNat,
          listenAddr.sin_addr.2.2.2.toNat), ntohs listenAddr.sin_port), (id + 1 : Int)) ∧
      ∀ (other : Nat) (otherConnection : Connection), final.conns[other]? = some otherConnection →
        (connection.name = otherConnection.name ↔ id = other) := by
  have always := run_named started ran
  have early : ∀ {id : Nat} {connection : Connection}, final.conns[id]? = some connection → serial id = id + 1 := by
    intro id connection found
    obtain ⟨inside, -⟩ := List.getElem?_eq_some_iff.mp found
    exact serial_of_lt (by omega)
  have isName := always.at_index found
  have text : ascii name = listenAddr.hostPort := by
    rw [listenAddr.getAddrString_eq] at named
    exact (Except.ok.inj named).symm
  have shown : ascii connection.name = listenAddr.hostPort ++ ascii "#" ++ signed (serial id) := by
    rw [isName, ascii_append, ascii_append, ascii_repr, text]
  refine ⟨?_, ?_, fun other otherConnection isFound => ?_⟩
  · rw [← early found, printConnName_eq, shown, text]
  · rw [← early found, shown]
    exact ofConnName_eq listenAddr (serial id)
  · rw [isName, always.at_index isFound, early found, early isFound]
    constructor
    · intro same
      have numbers := Int.repr_injective ((String.append_right_inj _).mp same)
      omega
    · intro same
      rw [same]

def twoAccepts : List Event :=
  [.loop .enterLoop, .loop .testQuit, .poll [(5, 1)], .handle ⟨.failed, .failed, some 7⟩, .loop .handlersDone,
    .loop .swap, .call .failed, .loop .testQuit, .poll [(5, 1)], .handle ⟨.failed, .failed, some 8⟩]

theorem names_read_two : ∃ server final connection,
    start "127.0.0.1:8080" ⟨3, 4, 5, by decide⟩ false = .ok server ∧ run step server twoAccepts = some final ∧
      final.conns[1]? = some connection ∧ ofConnName (ascii connection.name) = some (((127, 0, 0, 1), 8080), 2) := by
  have reached : (start "127.0.0.1:8080" ⟨3, 4, 5, by decide⟩ false).toOption.any (fun server =>
      (run step server twoAccepts).any (fun final => final.conns.length = 2) = true) = true := by
    decide +kernel
  obtain ⟨server, started, ends⟩ := exists_started reached
  obtain ⟨final, ran, both⟩ := (Option.any_eq_true _ _).mp ends
  have count : final.conns.length = 2 := of_decide_eq_true both
  obtain ⟨connection, found⟩ : ∃ connection, final.conns[1]? = some connection :=
    ⟨_, List.getElem?_eq_getElem (by omega)⟩
  have named : SockaddrIn.getAddrString (List.replicate 32 255) rfl ⟨(127, 0, 0, 1), (31, 144)⟩ =
      .ok (ascii "127.0.0.1:8080") := by
    decide +kernel
  obtain ⟨-, reads, -⟩ := names_read ⟨(127, 0, 0, 1), (31, 144)⟩ (List.replicate 32 255) (List.replicate 32 255) rfl rfl
    ⟨3, 4, 5, by decide⟩ false twoAccepts named started ran (by omega) 1 connection found
  exact ⟨server, final, connection, started, ran, found, reads⟩

end Runs

end TcpServer

end NutServer.Net
