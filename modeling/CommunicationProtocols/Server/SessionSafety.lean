import CommunicationProtocols.Server.Conservation
import CommunicationProtocols.Server.Loop
import CommunicationProtocols.Server.Opaque

/-!
# Safety of the server's sessions

In whatever order bytes arrive that fit the arrays they are copied to, the map, the
flags, the list of clients and the watched descriptors agree, no search the server
relies on fails, and a client whose id is online is turned away without a trace but
its open socket.
-/

namespace CommunicationProtocols.Server

open Library

variable {floatText : FloatText}

/-- A connection with the id of an online client is refused and changes nothing but
the set of open descriptors. -/
theorem ServerState.connection_refused {server : ServerState}
    (consistent : server.session.Consistent) {newsockfd : Fd} {id : CString} (valid : ValidId id)
    (online : server.session.IsOnline id) :
    ∃ after outputs, server.step floatText (.connection newsockfd (id ++ [0])) =
        some (after, outputs) ∧
      after.session =
        { server.session with openFds := insert newsockfd server.session.openFds } ∧
      ∃ bytes, outputs = [⟨newsockfd, bytes⟩] := by
  have taken : server.session.checkUniqueId id = false := by
    rw [← Bool.not_eq_true, consistent.checkUniqueId_iff_offline]
    obtain ⟨ptr, member, same, flag⟩ := online
    intro offline
    rw [offline ptr member same] at flag
    cases flag
  have short : id.length < bufLen := valid.1.trans_lt (by decide)
  let buffer := server.buffer.receive (id ++ [0])
  refine ⟨⟨{ server.session with openFds := insert newsockfd server.session.openFds },
    server.sMessage, buffer.receive (exitWord ++ [0])⟩, [⟨newsockfd, refusal buffer⟩], ?_, rfl,
    refusal buffer, rfl⟩
  simp only [step, connection, ByteBuffer.string_receive_terminated _ short valid.2,
    Session.connect_refused taken, taken, Option.map_some, List.map_cons, List.map_nil,
    transmission, buffer]
  rfl

/-- The four places that know about sessions agree, every event that can be offered has a
step, and the id of an online client is refused. -/
structure SessionSafe (floatText : FloatText) (server : ServerState) : Prop where
  consistent : server.session.Consistent
  defined : ∀ event, server.Admissible event → ∃ after outputs,
    server.step floatText event = some (after, outputs)
  refused : ∀ newsockfd id, ValidId id → server.session.IsOnline id →
    ∃ after outputs, server.step floatText (.connection newsockfd (id ++ [0])) =
        some (after, outputs) ∧
      after.session = { server.session with openFds := insert newsockfd server.session.openFds } ∧
      ∃ bytes, outputs = [⟨newsockfd, bytes⟩]

/-- Sessions that agree are safe. -/
theorem ServerState.sessionSafe {server : ServerState} (consistent : server.session.Consistent) :
    SessionSafe floatText server where
  consistent := consistent
  defined event admitted := by
    obtain ⟨after, outputs, stepped, _⟩ := exists_step floatText consistent admitted
    exact ⟨after, outputs, stepped⟩
  refused newsockfd id valid online := connection_refused consistent valid online

/-- As long as no text overruns its array, the server reaches safe states only. -/
theorem sessionSafe_of_run {start final : ServerState}
    {trace : List (Transition ServerState ServerEvent Transmission)}
    (initial : start.session.Initial) (run : (serverMachine floatText).Run start trace final) :
    SessionSafe floatText final :=
  ServerState.sessionSafe (ServerState.consistent_of_run initial.consistent run)

/-! ## One client -/

/-- A server that has just started. -/
def sampleServer : ServerState where
  session := sampleSession.map fun _ => []
  sMessage := ⟨0, [], false⟩
  buffer _ := 0

theorem sampleServer_initial : sampleServer.session.Initial :=
  ⟨rfl, rfl, rfl, sampleSession_initial.opened, rfl⟩

/-- The client `A` connects on descriptor 5. -/
def sampleConnection : ServerEvent := .connection 5 [65, 0]

theorem sampleConnection_steps :
    ((serverMachine fun _ _ _ => []).step sampleServer sampleConnection).isSome := by
  decide +kernel

/-- The server once `A` is online. -/
def connectedServer : ServerState :=
  (((serverMachine fun _ _ _ => []).step sampleServer sampleConnection).get
    sampleConnection_steps).1

theorem sampleConnection_admitted :
    (serverMachine fun _ _ _ => []).Admits sampleServer sampleConnection :=
  ⟨by decide, [65], by decide, rfl⟩

end CommunicationProtocols.Server
