import CommunicationProtocols.Library.Channel
import CommunicationProtocols.Server.Subscriber

/-!
# The server and its subscribers

Every subscriber is a process of its own, and between it and the server are two byte
streams. The server and the subscribers take their rounds in any order, and a read takes
any number of the bytes that are there for it; only the id is received on its own. System
calls do not fail, and the server is not told to exit.
-/

namespace CommunicationProtocols.Subscriber

/-- What a round sends to the server. -/
def sentBy (outputs : List Output) : List (List UInt8) :=
  outputs.filterMap fun output => match output with
    | .sent bytes => some bytes
    | _ => none

end CommunicationProtocols.Subscriber

namespace CommunicationProtocols.Server

open Library

/-- A subscriber, the socket the server has for it and the streams between them. The flag is
the server's answer to the id. -/
structure Connection where
  fd : Fd
  id : CString
  accepted : Bool
  subscriber : Subscriber.State
  outputs : List Subscriber.Output
  toClient : Channel UInt8
  toServer : Channel UInt8

namespace Connection

/-- A subscriber that has sent its id; `memory` is what its buffer holds. -/
def start (fd : Fd) (id : CString) (accepted : Bool) (memory : ByteBuffer) : Connection :=
  ⟨fd, id, accepted, ⟨memory, .running⟩, [], .empty, .empty⟩

/-- One round of the subscriber. -/
def round (connection : Connection) (event : Subscriber.Event) : Connection :=
  let result := Subscriber.round connection.subscriber event
  { connection with
    subscriber := result.1
    outputs := connection.outputs ++ result.2
    toServer := connection.toServer.writeAll (Subscriber.sentBy result.2) }

/-- The subscriber receives up to `n` bytes. -/
def receives (n : Nat) (connection : Connection) : Connection :=
  { connection.round (.chunk (connection.toClient.inFlight.take n)) with
    toClient := connection.toClient.read n }

/-- The server receives up to `n` bytes. -/
def served (n : Nat) (connection : Connection) : Connection :=
  { connection with toServer := connection.toServer.read n }

/-- The bytes sent to a descriptor, `send` by `send`. -/
def share (fd : Fd) (transmissions : List Transmission) : List (List UInt8) :=
  (transmissions.filter fun transmission => transmission.fd = fd).map Transmission.bytes

/-- The server has sent something, part of it to this subscriber. -/
def hears (transmissions : List Transmission) (connection : Connection) : Connection :=
  { connection with
    toClient := connection.toClient.writeAll (share connection.fd transmissions) }

/-- The subscriber has not left its loop. -/
def Running (connection : Connection) : Prop := connection.subscriber.phase = .running

end Connection

/-- The server, the subscribers whose sockets it has open, and those whose sockets it
has closed. -/
structure Deployment where
  server : ServerState
  connections : List Connection
  closed : List Connection

/-- What happens next, and where. -/
inductive Deployment.Event where
  | connects (newsockfd : Fd) (id : CString) (memory : ByteBuffer)
  | datagram (sender : Sender) (bytes : List UInt8) (lastByte : UInt8)
  | stdin (line : List UInt8)
  | serverReads (fd : Fd) (n : Nat)
  | serverCloses (fd : Fd)
  | subscriberReads (fd : Fd) (n : Nat)
  | subscriberTypes (fd : Fd) (line : CString)

namespace Deployment

/-- The connection on a descriptor takes a step. -/
def onFd (fd : Fd) (change : Connection → Connection) (deployment : Deployment) : Deployment :=
  { deployment with
    connections := deployment.connections.map fun connection =>
      if connection.fd = fd then change connection else connection }

/-- The connection on a descriptor. -/
def connectionOn (deployment : Deployment) (fd : Fd) : Option Connection :=
  KeyedList.find Connection.fd fd deployment.connections

/-- A client connects: the server opens a socket for it and reads its id. -/
def entered (deployment : Deployment) (newsockfd : Fd) (id : CString) (memory : ByteBuffer) :
    Deployment :=
  { deployment with
    connections := .start newsockfd id (deployment.server.session.checkUniqueId id) memory ::
      deployment.connections }

/-- The socket of a connection is closed. -/
def left (deployment : Deployment) (fd : Fd) : Deployment :=
  { deployment with
    connections := KeyedList.remove Connection.fd fd deployment.connections
    closed := (deployment.connectionOn fd).toList ++ deployment.closed }

/-- What an event does outside the server. -/
def prepare (deployment : Deployment) : Event → Deployment
  | .connects newsockfd id memory => deployment.entered newsockfd id memory
  | .datagram _ _ _ => deployment
  | .stdin _ => deployment
  | .serverReads fd n => deployment.onFd fd (Connection.served n)
  | .serverCloses fd => deployment.left fd
  | .subscriberReads fd n => deployment.onFd fd (Connection.receives n)
  | .subscriberTypes fd line => deployment.onFd fd fun connection => connection.round (.line line)

/-- What the server finds in an event. -/
def serverEvent (deployment : Deployment) : Event → Option ServerEvent
  | .connects newsockfd id _ => some (.connection newsockfd (id ++ [0]))
  | .datagram sender bytes lastByte => some (.datagram sender bytes lastByte)
  | .stdin line => some (.stdin line)
  | .serverReads fd n => (deployment.connectionOn fd).map fun connection =>
      .received fd (connection.toServer.inFlight.take n)
  | .serverCloses fd => some (.received fd [])
  | .subscriberReads _ _ => none
  | .subscriberTypes _ _ => none

/-- A step outside the server, or a round of the server; what it sends enters the streams. -/
def step (floatText : FloatText) (deployment : Deployment) (event : Event) :
    Option (Deployment × List Transmission) :=
  let prepared := deployment.prepare event
  match deployment.serverEvent event with
  | none => some (prepared, [])
  | some found => (prepared.server.step floatText found).map fun result =>
      ({ prepared with
          server := result.1
          connections := prepared.connections.map (Connection.hears result.2) }, result.2)

/-- What can happen: the server reads from the sockets it watches, and finds the end of a
connection once the subscriber has left and everything it sent has been read. -/
def Admits (deployment : Deployment) : Event → Prop
  | .connects newsockfd id _ => newsockfd ∉ deployment.server.session.openFds ∧ ValidId id
  | .datagram _ bytes _ => bytes.length ≤ bufLen
  | .stdin line => line.length + 1 < bufLen ∧ line ≠ exitWord ++ [10]
  | .serverReads fd n => deployment.server.session.Reports fd ∧ 0 < n ∧ n < bufLen ∧
      ∃ connection, deployment.connectionOn fd = some connection ∧
        n ≤ connection.toServer.inFlight.length
  | .serverCloses fd => deployment.server.session.Reports fd ∧
      ∃ connection, deployment.connectionOn fd = some connection ∧
        connection.toServer.inFlight = [] ∧ ¬connection.Running
  | .subscriberReads fd n => 0 < n ∧ n ≤ bufLen ∧
      ∃ connection, deployment.connectionOn fd = some connection ∧ connection.Running ∧
        n ≤ connection.toClient.inFlight.length
  | .subscriberTypes fd line => line.length + 1 < bufLen ∧
      ∃ connection, deployment.connectionOn fd = some connection ∧ connection.Running

instance (found : Option Connection) (holds : Connection → Prop) [DecidablePred holds] :
    Decidable (∃ connection, found = some connection ∧ holds connection) :=
  match found with
  | some connection => decidable_of_iff (holds connection) (by simp)
  | none => isFalse (by simp)

instance (connection : Connection) : Decidable connection.Running :=
  inferInstanceAs (Decidable (_ = _))

instance (deployment : Deployment) : (event : Event) → Decidable (deployment.Admits event)
  | .connects _ _ _ => inferInstanceAs (Decidable (_ ∧ _))
  | .datagram _ _ _ => inferInstanceAs (Decidable (_ ≤ _))
  | .stdin _ => inferInstanceAs (Decidable (_ ∧ _))
  | .serverReads _ _ => inferInstanceAs (Decidable (_ ∧ _ ∧ _ ∧ ∃ _, _ ∧ _))
  | .serverCloses _ => inferInstanceAs (Decidable (_ ∧ ∃ _, _ ∧ _ ∧ _))
  | .subscriberReads _ _ => inferInstanceAs (Decidable (_ ∧ _ ∧ ∃ _, _ ∧ _ ∧ _))
  | .subscriberTypes _ _ => inferInstanceAs (Decidable (_ ∧ ∃ _, _ ∧ _))

/-- Nobody has connected to a server that has just started. -/
structure Initial (deployment : Deployment) : Prop where
  session : deployment.server.session.Initial
  fresh : deployment.server.session.FreshMemory
  nobody : deployment.connections = []
  nobodyLeft : deployment.closed = []

end Deployment

/-- The system as a machine; its outputs are what the server sends. -/
def deploymentMachine (floatText : FloatText) :
    Machine Deployment Deployment.Event Transmission where
  Admits := Deployment.Admits
  step := Deployment.step floatText

instance (floatText : FloatText) (deployment : Deployment) (event : Deployment.Event) :
    Decidable ((deploymentMachine floatText).Admits deployment event) :=
  inferInstanceAs (Decidable (deployment.Admits event))

/-! ## One connection -/

namespace Connection

/-- `"exit"` if the subscriber has taken a chunk for the refusal of its id. -/
def swallowed (connection : Connection) : List UInt8 :=
  if connection.subscriber.phase = .idUsed then exitWord else []

/-- An accepted subscriber is sent strings, and unless it has read behind its buffer it has
printed what it has received. From a refused one the server has read nothing but its id. -/
structure Sound (connection : Connection) : Prop where
  whole : connection.accepted → ∀ message ∈ connection.toClient.messages, 0 ∉ message
  printed : connection.accepted → .overread ∉ connection.outputs →
    Subscriber.printedBy connection.outputs ++ connection.swallowed = connection.toClient.delivered
  unheard : connection.accepted = false → connection.toServer.delivered = []

/-- A new connection is sound. -/
theorem start_sound (fd : Fd) (id : CString) (accepted : Bool) (memory : ByteBuffer) :
    (start fd id accepted memory).Sound where
  whole _ message member := by cases member
  printed _ _ := rfl
  unheard _ := rfl

/-- A connection the server reads from stays sound. -/
theorem Sound.served {connection : Connection} (sound : connection.Sound)
    (accepted : connection.accepted = true) (n : Nat) : (connection.served n).Sound where
  whole := sound.whole
  printed := sound.printed
  unheard refused := absurd (accepted.symm.trans refused) (by decide)

/-- A connection that whole strings are written to stays sound. -/
theorem Sound.hears {connection : Connection} (sound : connection.Sound)
    {transmissions : List Transmission}
    (whole : connection.accepted → ∀ transmission ∈ transmissions,
      transmission.fd = connection.fd → 0 ∉ transmission.bytes) :
    (connection.hears transmissions).Sound where
  whole accepted message member := by
    rw [Connection.hears, Channel.messages_writeAll, List.mem_append] at member
    rcases member with before | heard
    · exact sound.whole accepted message before
    · obtain ⟨transmission, filtered, rfl⟩ := List.mem_map.mp heard
      obtain ⟨sent, same⟩ := List.mem_filter.mp filtered
      exact whole accepted transmission sent (of_decide_eq_true same)
  printed accepted inBounds := by
    rw [Connection.hears, Channel.delivered_writeAll]
    exact sound.printed accepted inBounds
  unheard := sound.unheard

/-- A subscriber that runs has not taken a chunk for the refusal. -/
theorem swallowed_of_running {connection : Connection} (running : connection.Running) :
    connection.swallowed = [] := by
  refine if_neg ?_
  rw [running]
  decide

/-- What is printed by two parts of the outputs, one after the other. -/
theorem printedBy_append (outputs outputs' : List Subscriber.Output) :
    Subscriber.printedBy (outputs ++ outputs') =
      Subscriber.printedBy outputs ++ Subscriber.printedBy outputs' := List.flatMap_append

@[simp] theorem fd_round (connection : Connection) (event : Subscriber.Event) :
    (connection.round event).fd = connection.fd := rfl

@[simp] theorem id_round (connection : Connection) (event : Subscriber.Event) :
    (connection.round event).id = connection.id := rfl

@[simp] theorem accepted_round (connection : Connection) (event : Subscriber.Event) :
    (connection.round event).accepted = connection.accepted := rfl

@[simp] theorem fd_receives (n : Nat) (connection : Connection) :
    (connection.receives n).fd = connection.fd := rfl

@[simp] theorem id_receives (n : Nat) (connection : Connection) :
    (connection.receives n).id = connection.id := rfl

@[simp] theorem accepted_receives (n : Nat) (connection : Connection) :
    (connection.receives n).accepted = connection.accepted := rfl

@[simp] theorem toClient_round (connection : Connection) (event : Subscriber.Event) :
    (connection.round event).toClient = connection.toClient := rfl

@[simp] theorem outputs_round (connection : Connection) (event : Subscriber.Event) :
    (connection.round event).outputs =
      connection.outputs ++ (Subscriber.round connection.subscriber event).2 := rfl

/-- A round of the subscriber does not change what the server has read. -/
theorem delivered_round (connection : Connection) (event : Subscriber.Event) :
    (connection.round event).toServer.delivered = connection.toServer.delivered :=
  Channel.delivered_writeAll _ _

/-- What a round swallows is the word `exit`, where it is taken for the refusal. -/
theorem swallowed_round (connection : Connection) (event : Subscriber.Event) :
    (connection.round event).swallowed =
      if (Subscriber.round connection.subscriber event).1.phase = .idUsed then exitWord else [] :=
  rfl

/-- What a round adds to what was printed. -/
theorem Sound.earlier {connection : Connection} (sound : connection.Sound)
    (running : connection.Running) {event : Subscriber.Event} (accepted : connection.accepted)
    (inBounds : .overread ∉ (connection.round event).outputs) :
    Subscriber.printedBy (connection.round event).outputs =
      connection.toClient.delivered ++
        Subscriber.printedBy (Subscriber.round connection.subscriber event).2 := by
  rw [outputs_round] at inBounds ⊢
  have earlier := sound.printed accepted fun member => inBounds (List.mem_append_left _ member)
  rw [swallowed_of_running running, List.append_nil] at earlier
  rw [printedBy_append, earlier]

/-- A line of the terminal prints nothing and is not taken for the refusal. -/
theorem line_cases (state : Subscriber.State) (line : CString) :
    Subscriber.printedBy (Subscriber.round state (.line line)).2 = [] ∧
      (Subscriber.round state (.line line)).1.phase ≠ .idUsed := by
  simp only [Subscriber.round, Subscriber.line]
  split_ifs
  · exact ⟨rfl, fun same => by cases same⟩
  · exact ⟨rfl, fun same => by cases same⟩

/-- A connection stays sound when a line is typed. -/
theorem Sound.types {connection : Connection} (sound : connection.Sound)
    (running : connection.Running) (line : CString) :
    (connection.round (.line line)).Sound where
  whole accepted := by
    rw [accepted_round] at accepted
    rw [toClient_round]
    exact sound.whole accepted
  printed accepted inBounds := by
    rw [accepted_round] at accepted
    obtain ⟨quiet, unmistaken⟩ := line_cases connection.subscriber line
    rw [sound.earlier running accepted inBounds, quiet, swallowed_round, if_neg unmistaken,
      List.append_nil, List.append_nil, toClient_round]
  unheard refused := by
    rw [accepted_round] at refused
    rw [delivered_round]
    exact sound.unheard refused

/-- What one chunk adds: it is printed, or it is the word, or it fills the buffer. -/
theorem chunk_cases (state : Subscriber.State) {bytes : List UInt8} (nonempty : bytes ≠ [])
    (whole : 0 ∉ bytes) (fits : bytes.length ≤ bufLen) :
    .overread ∈ (Subscriber.round state (.chunk bytes)).2 ∨
      Subscriber.printedBy (Subscriber.round state (.chunk bytes)).2 ++
        (if (Subscriber.round state (.chunk bytes)).1.phase = .idUsed then exitWord else []) =
          bytes := by
  rcases Nat.lt_or_eq_of_le fits with short | full
  · right
    by_cases message : bytes = exitWord
    · have string := ByteBuffer.string_receive_clear state.buffer fits whole
      rw [message] at string
      simp only [message, Subscriber.round, Subscriber.chunk, string,
        if_neg (by decide : exitWord ≠ []), if_true]
      rfl
    · obtain ⟨running, printed⟩ := @Subscriber.chunk_printed state bytes nonempty whole short message
      rw [running, printed, if_neg (by decide), List.append_nil]
      exact List.append_nil bytes
  · exact .inl (Subscriber.chunk_full whole full)

/-- A connection stays sound when bytes are received. -/
theorem Sound.receives {connection : Connection} (sound : connection.Sound)
    (running : connection.Running) {n : Nat} (positive : 0 < n) (fits : n ≤ bufLen)
    (there : n ≤ connection.toClient.inFlight.length) : (connection.receives n).Sound where
  whole := sound.whole
  printed accepted inBounds := by
    let bytes := connection.toClient.inFlight.take n
    have length : bytes.length = n := by rw [List.length_take, Nat.min_eq_left there]
    have nonempty : bytes ≠ [] := List.ne_nil_of_length_pos (by rw [length]; exact positive)
    have whole : 0 ∉ bytes := by
      intro zero
      obtain ⟨message, sent, inside⟩ := Channel.mem_of_mem_inFlight (List.mem_of_mem_take zero)
      exact sound.whole accepted message sent inside
    rcases chunk_cases connection.subscriber nonempty whole (by rwa [length]) with behind | received
    · exact absurd (List.mem_append_right _ behind) inBounds
    · change Subscriber.printedBy (connection.round (.chunk bytes)).outputs ++
        (connection.round (.chunk bytes)).swallowed = connection.toClient.delivered ++ bytes
      rw [sound.earlier running accepted inBounds, swallowed_round, List.append_assoc, received]
  unheard refused := by
    rw [accepted_receives] at refused
    change (connection.round _).toServer.delivered = []
    rw [delivered_round]
    exact sound.unheard refused

end Connection

end CommunicationProtocols.Server
