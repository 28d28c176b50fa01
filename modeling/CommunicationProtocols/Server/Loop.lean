import CommunicationProtocols.Server.Command
import CommunicationProtocols.Server.Datagram
import CommunicationProtocols.Server.Delivery

/-!
# The server's receive loop

One step is the handling of one descriptor that `select` has reported, with the
bytes that `recv`, `recvfrom` or `fgets` has read into the one buffer of the
server. `memset(buffer, BUFLEN, 0)` clears nothing, its arguments being swapped;
only the client branch really clears the buffer. What the bytes mean is an event
of the bookkeeping, or nothing.
-/

namespace CommunicationProtocols.Server

open Library

/-- The variables of `main`. -/
structure ServerState where
  session : Session CString
  sMessage : ServerMessage
  buffer : ByteBuffer

/-- One `send`. -/
structure Transmission where
  fd : Fd
  bytes : List UInt8
deriving DecidableEq

/-- What the loop reacts to. No bytes on a client's socket are the end of its
connection; `lastByte` is what the memory of the new `udp_message_node` holds
behind the copied topic. -/
inductive ServerEvent where
  | connection (newsockfd : Fd) (bytes : List UInt8)
  | datagram (sender : Sender) (bytes : List UInt8) (lastByte : UInt8)
  | stdin (line : List UInt8)
  | received (fd : Fd) (bytes : List UInt8)

/-- `"exit"`. -/
def exitWord : CString := [101, 120, 105, 116]

namespace ServerState

/-- The eight bytes that refuse a client: `sizeof(buffer)` is the size of a pointer. -/
def refusal (buffer : ByteBuffer) : List UInt8 := (buffer.receive (exitWord ++ [0])).contents 8

/-- The bytes of an output. -/
def transmission (buffer : ByteBuffer) : Output CString → Transmission
  | .send fd text => ⟨fd, text⟩
  | .refuse fd => ⟨fd, refusal buffer⟩

/-- The branch of a connection request. -/
def connection (server : ServerState) (newsockfd : Fd) (bytes : List UInt8) :
    Option (ServerState × List Transmission) :=
  let buffer := server.buffer.receive bytes
  let id := buffer.string 0 bufLen
  let after := if server.session.checkUniqueId id then buffer else buffer.receive (exitWord ++ [0])
  (server.session.connect newsockfd id).map fun result =>
    ({ server with session := result.1, buffer := after }, result.2.map (transmission buffer))

/-- The branch of a datagram. -/
def datagram (floatText : FloatText) (server : ServerState) (sender : Sender) (bytes : List UInt8)
    (lastByte : UInt8) : ServerState × List Transmission :=
  let buffer := server.buffer.receive bytes
  match interpretDatagram floatText buffer sender lastByte with
  | some (message, line) =>
      let published := server.session.publish message.topic line
      ({ server with session := published.1, buffer := buffer.receive (line ++ [0]) },
        published.2.map (transmission buffer))
  | none => ({ server with buffer := buffer }, [])

/-- The branch of a client's socket. -/
def received (server : ServerState) (fd : Fd) (bytes : List UInt8) :
    Option (ServerState × List Transmission) :=
  let buffer := (server.buffer.clear bufLen).receive bytes
  if bytes = [] then
    (server.session.disconnect fd).map fun result =>
      ({ server with session := result.1, buffer := buffer }, result.2.map (transmission buffer))
  else
    let string := buffer.string 0 bufLen
    let decoded := decodeMessage server.sMessage string
    let buffer := buffer.receive (Tokens.terminate blank 0 decoded.nrParam false string)
    if decoded.accepted = false then
      some ({ server with sMessage := decoded.message, buffer := buffer }, [])
    else if decoded.message.type = 115 then
      (server.session.subscribe fd decoded.message.topic decoded.message.sf).map fun result =>
        (⟨result.1, decoded.message, buffer⟩, result.2.map (transmission buffer))
    else
      let message := chopTopic decoded.message
      (server.session.unsubscribe fd message.topic).map fun result =>
        (⟨result.1, message, buffer⟩, result.2.map (transmission buffer))

/-- One round of the loop over the descriptors. -/
def step (floatText : FloatText) (server : ServerState) :
    ServerEvent → Option (ServerState × List Transmission)
  | .connection newsockfd bytes => server.connection newsockfd bytes
  | .datagram sender bytes lastByte => some (server.datagram floatText sender bytes lastByte)
  | .stdin line => some ({ server with buffer := server.buffer.receive (line ++ [0]) }, [])
  | .received fd bytes => server.received fd bytes

/-- What the environment can offer: an id as a subscriber sends it, a datagram, a line
that does not end the server, or what a watched client has sent. -/
def Admissible (server : ServerState) : ServerEvent → Prop
  | .connection newsockfd bytes =>
      newsockfd ∉ server.session.openFds ∧ ∃ id, ValidId id ∧ bytes = id ++ [0]
  | .datagram _ bytes _ => bytes.length ≤ bufLen
  | .stdin line => line.length + 1 < bufLen ∧ line ≠ exitWord ++ [10]
  | .received fd bytes => server.session.Reports fd ∧ bytes.length < bufLen

/-- Bytes are a valid id with its NUL exactly if all but the last are, and the last is NUL. -/
theorem exists_terminated_iff {bytes : List UInt8} :
    (∃ id, ValidId id ∧ bytes = id ++ [0]) ↔
      ValidId bytes.dropLast ∧ bytes.getLast? = some 0 := by
  constructor
  · rintro ⟨id, valid, rfl⟩
    simpa using valid
  · rintro ⟨valid, last⟩
    exact ⟨bytes.dropLast, valid, (List.dropLast_append_getLast? 0 last).symm⟩

instance (server : ServerState) : (event : ServerEvent) → Decidable (server.Admissible event)
  | .connection newsockfd bytes =>
      decidable_of_iff (newsockfd ∉ server.session.openFds ∧
        ValidId bytes.dropLast ∧ bytes.getLast? = some 0)
        (and_congr_right fun _ => exists_terminated_iff.symm)
  | .datagram _ bytes _ => inferInstanceAs (Decidable (bytes.length ≤ bufLen))
  | .stdin line =>
      inferInstanceAs (Decidable (line.length + 1 < bufLen ∧ line ≠ exitWord ++ [10]))
  | .received fd bytes =>
      inferInstanceAs (Decidable (server.session.Reports fd ∧ bytes.length < bufLen))

end ServerState

/-- The server as a machine. -/
def serverMachine (floatText : FloatText) : Machine ServerState ServerEvent Transmission where
  Admits server event := server.Admissible event
  step server event := server.step floatText event

instance (floatText : FloatText) (server : ServerState) (event : ServerEvent) :
    Decidable ((serverMachine floatText).Admits server event) :=
  inferInstanceAs (Decidable (server.Admissible event))

/-! ## What the bytes mean -/

/-- The event of the bookkeeping that received bytes stand for. -/
def ServerState.meaning (floatText : FloatText) (server : ServerState) :
    ServerEvent → Option (Event CString)
  | .connection newsockfd bytes =>
      some (.connect newsockfd ((server.buffer.receive bytes).string 0 bufLen))
  | .datagram sender bytes lastByte =>
      (interpretDatagram floatText (server.buffer.receive bytes) sender lastByte).map
        fun interpreted => .publish interpreted.1.topic interpreted.2
  | .stdin _ => none
  | .received fd bytes =>
      if bytes = [] then some (.disconnect fd)
      else
        let decoded := decodeMessage server.sMessage
          (((server.buffer.clear bufLen).receive bytes).string 0 bufLen)
        if decoded.accepted = false then none
        else if decoded.message.type = 115 then
          some (.subscribe fd decoded.message.topic decoded.message.sf)
        else
          some (.unsubscribe fd (chopTopic decoded.message).topic)

/-- A step does to the bookkeeping what its bytes mean, and nothing if they mean nothing. -/
theorem ServerState.step_session (floatText : FloatText) (server : ServerState) (event : ServerEvent) :
    (server.step floatText event).map (fun result => result.1.session) =
      match server.meaning floatText event with
      | some meant =>
          ((sessionMachine CString).step server.session meant).map fun result => result.1
      | none => some server.session := by
  cases event with
  | connection newsockfd bytes => simp [step, connection, meaning, sessionMachine, Function.comp_def]
  | datagram sender bytes lastByte =>
      simp only [step, datagram, meaning]
      cases interpretDatagram floatText (server.buffer.receive bytes) sender lastByte with
      | some interpreted => simp [sessionMachine]
      | none => rfl
  | stdin line => rfl
  | received fd bytes =>
      simp only [step, received, meaning]
      split
      · simp [sessionMachine, Function.comp_def]
      · split
        · rfl
        · split
          · simp [sessionMachine, Function.comp_def]
          · simp [sessionMachine, Function.comp_def]

/-- What can be offered to the server means something that can be offered to its
bookkeeping. -/
theorem ServerState.meaning_admissible {floatText : FloatText} {server : ServerState}
    {event : ServerEvent} {meant : Event CString} (admitted : server.Admissible event)
    (means : server.meaning floatText event = some meant) : meant.Admissible server.session := by
  cases event with
  | connection newsockfd bytes =>
      obtain ⟨closed, id, valid, rfl⟩ := admitted
      have short : id.length < bufLen := valid.1.trans_lt (by decide)
      simp only [meaning, ByteBuffer.string_receive_terminated _ short valid.2,
        Option.some.injEq] at means
      subst means
      exact ⟨closed, valid⟩
  | datagram sender bytes lastByte =>
      obtain ⟨interpreted, _, rfl⟩ := Option.map_eq_some_iff.mp means
      trivial
  | stdin line => cases means
  | received fd bytes =>
      simp only [meaning] at means
      split at means
      · cases means
        exact admitted.1
      · split at means
        · cases means
        · split at means
          · cases means
            exact admitted.1
          · cases means
            exact admitted.1

/-- Every admitted event has a step, with the effect of what it means. -/
theorem ServerState.exists_step (floatText : FloatText) {server : ServerState}
    (consistent : server.session.Consistent) {event : ServerEvent}
    (admitted : server.Admissible event) :
    ∃ after outputs, server.step floatText event = some (after, outputs) ∧
      match server.meaning floatText event with
      | some meant => ∃ sent,
          (sessionMachine CString).step server.session meant = some (after.session, sent)
      | none => after.session = server.session := by
  have stepped := server.step_session floatText event
  cases means : server.meaning floatText event with
  | none =>
      rw [means] at stepped
      obtain ⟨⟨after, outputs⟩, taken, same⟩ := Option.map_eq_some_iff.mp stepped
      exact ⟨after, outputs, taken, same⟩
  | some meant =>
      obtain ⟨session, sent, defined, _⟩ := consistent.step (meaning_admissible admitted means)
      rw [means] at stepped
      simp only [defined, Option.map_some] at stepped
      obtain ⟨⟨after, outputs⟩, taken, same⟩ := Option.map_eq_some_iff.mp stepped
      exact ⟨after, outputs, taken, sent, same ▸ defined⟩

/-- A transition of the server means nothing to its bookkeeping, or is a transition of it. -/
theorem ServerState.silent_or_meant {floatText : FloatText}
    {transition : Transition ServerState ServerEvent Transmission}
    (genuine : (serverMachine floatText).Genuine transition)
    (consistent : transition.before.session.Consistent) :
    (transition.before.meaning floatText transition.event = none ∧
        transition.after.session = transition.before.session) ∨
      ∃ meant sent, transition.before.meaning floatText transition.event = some meant ∧
        (sessionMachine CString).Genuine
          ⟨transition.before.session, meant, sent, transition.after.session⟩ := by
  obtain ⟨after, outputs, stepped, effect⟩ := exists_step floatText consistent genuine.admitted
  obtain same : transition.after = after :=
    congrArg Prod.fst (Option.some.inj (genuine.stepped.symm.trans stepped))
  rw [same]
  cases means : transition.before.meaning floatText transition.event with
  | none =>
      rw [means] at effect
      exact .inl ⟨rfl, effect⟩
  | some meant =>
      rw [means] at effect
      obtain ⟨sent, taken⟩ := effect
      exact .inr ⟨meant, sent, rfl, meaning_admissible genuine.admitted means, taken⟩

/-- A step keeps the bookkeeping in agreement. -/
theorem ServerState.consistent_preserved {floatText : FloatText}
    (transition : Transition ServerState ServerEvent Transmission)
    (genuine : (serverMachine floatText).Genuine transition)
    (consistent : transition.before.session.Consistent) :
    transition.after.session.Consistent := by
  obtain ⟨_, same⟩ | ⟨meant, sent, _, sessionGenuine⟩ := silent_or_meant genuine consistent
  · rwa [same]
  · exact Session.consistent_preserved _ sessionGenuine consistent

/-- Every run keeps the session consistent. -/
theorem ServerState.consistent_of_run {floatText : FloatText} {start final : ServerState}
    {trace : List (Transition ServerState ServerEvent Transmission)}
    (consistent : start.session.Consistent)
    (run : (serverMachine floatText).Run start trace final) : final.session.Consistent :=
  @Machine.Run.invariant _ _ _ _ (fun server => server.session.Consistent) _ _ _
    consistent_preserved run consistent

/-- The bookkeeping of a run of the server is a run of the bookkeeping. -/
theorem exists_sessionRun {floatText : FloatText} {start final : ServerState}
    {trace : List (Transition ServerState ServerEvent Transmission)}
    (initial : start.session.Initial) (run : (serverMachine floatText).Run start trace final) :
    ∃ sessionTrace, (sessionMachine CString).Run start.session sessionTrace final.session := by
  induction run with
  | refl => exact ⟨[], .refl⟩
  | @step trace server event outputs next prior admitted stepped ih =>
      obtain ⟨sessionTrace, sessionRun⟩ := ih
      have consistent := Session.consistent_of_run initial sessionRun
      have genuine : (serverMachine floatText).Genuine ⟨server, event, outputs, next⟩ :=
        ⟨admitted, stepped⟩
      obtain ⟨_, same⟩ | ⟨meant, sent, _, sessionGenuine⟩ :=
        ServerState.silent_or_meant genuine consistent
      · exact ⟨sessionTrace, same ▸ sessionRun⟩
      · exact ⟨_, sessionRun.step sessionGenuine.admitted sessionGenuine.stepped⟩

end CommunicationProtocols.Server
