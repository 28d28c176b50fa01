import CommunicationProtocols.Server.SessionSafety
import Mathlib.Data.List.TakeWhile

/-!
# What allocated memory held before

`add_client_to_clients` writes the id and the flag of a new record and neither of its
lists, and `decode_udp_message` leaves the last byte of the topic as it was when the
topic fills the field. Two runs on the same inputs over different memory are compared:
nothing else of the memory matters, and the lists matter to every run with a client.
-/

namespace CommunicationProtocols.Server

open Library

variable {Text : Type*} {floatText : FloatText}

namespace Session

/-- The same session over other client records. -/
def withClients (session : Session Text) (clients : ClientPtr → Client Text) : Session Text :=
  { session with clients := clients }

/-- Records that agree with those of a session on both lists, and altogether where a
client is registered. -/
structure Indistinct (session : Session Text) (clients : ClientPtr → Client Text) : Prop where
  topics : ∀ ptr, (clients ptr).topics = (session.clients ptr).topics
  pending : ∀ ptr, (clients ptr).pendingMessages = (session.clients ptr).pendingMessages
  registered : ∀ ptr ∈ session.allClients, clients ptr = session.clients ptr

/-! ## Records that are not distinguished -/

/-- Records stay indistinct where neither they nor the list of clients change. -/
theorem Indistinct.of_records {session after : Session Text} {clients : ClientPtr → Client Text}
    (indistinct : session.Indistinct clients) (records : after.clients = session.clients)
    (all : after.allClients = session.allClients) : after.Indistinct clients where
  topics ptr := by rw [records, indistinct.topics]
  pending ptr := by rw [records, indistinct.pending]
  registered ptr member := by rw [records, indistinct.registered ptr (all ▸ member)]

/-- Records stay indistinct when a client's record is changed in both memories. -/
theorem Indistinct.modify {session : Session Text} {clients : ClientPtr → Client Text}
    (indistinct : session.Indistinct clients) {ptr : ClientPtr} (member : ptr ∈ session.allClients)
    (change : Client Text → Client Text) :
    (session.modify ptr change).Indistinct
      (Function.update clients ptr (change (clients ptr))) := by
  have changed : change (clients ptr) = (session.modify ptr change).clients ptr := by
    rw [modify_clients_same, indistinct.registered ptr member]
  have same (other : ClientPtr) :
      Function.update clients ptr (change (clients ptr)) other =
          (session.modify ptr change).clients other ∨
        (session.modify ptr change).clients other = session.clients other ∧
          Function.update clients ptr (change (clients ptr)) other = clients other := by
    by_cases this : other = ptr
    · rw [this, Function.update_self]
      exact .inl changed
    · rw [Function.update_of_ne this, modify_clients_of_ne _ _ this]
      exact .inr ⟨rfl, rfl⟩
  constructor
  · intro other
    obtain equal | ⟨kept, kept'⟩ := same other
    · rw [equal]
    · rw [kept, kept', indistinct.topics]
  · intro other
    obtain equal | ⟨kept, kept'⟩ := same other
    · rw [equal]
    · rw [kept, kept', indistinct.pending]
  · intro other registered
    obtain equal | ⟨kept, kept'⟩ := same other
    · exact equal
    · rw [kept, kept', indistinct.registered other registered]

/-- The id of a new record is written before anything but its lists is read. -/
theorem Indistinct.register {session : Session Text} {clients : ClientPtr → Client Text}
    (indistinct : session.Indistinct clients) (id : CString) :
    (session.register id).Indistinct
      ((session.withClients clients).register id).clients where
  topics ptr := by
    by_cases this : ptr = session.allocated
    · simp [Session.register, withClients, this, indistinct.topics]
    · simp [Session.register, withClients, this, Session.modify, indistinct.topics]
  pending ptr := by
    by_cases this : ptr = session.allocated
    · simp [Session.register, withClients, this, indistinct.pending]
    · simp [Session.register, withClients, this, Session.modify, indistinct.pending]
  registered ptr member := by
    by_cases this : ptr = session.allocated
    · simp [Session.register, withClients, this, indistinct.topics, indistinct.pending]
    · have known : ptr ∈ session.allClients := by simpa [Session.register, this] using member
      simp [Session.register, withClients, this, Session.modify,
        indistinct.registered ptr known]

/-! ## Every event is taken alike -/

/-- A client is found under the same pointer. -/
theorem Indistinct.getClient {session : Session Text} {clients : ClientPtr → Client Text}
    (indistinct : session.Indistinct clients) (id : CString) :
    (session.withClients clients).getClient id = session.getClient id :=
  KeyedList.find_congr fun ptr member => congrArg Client.id (indistinct.registered ptr member)

/-- An id is free in both or in none. -/
theorem Indistinct.checkUniqueId {session : Session Text} {clients : ClientPtr → Client Text}
    (indistinct : session.Indistinct clients) (consistent : session.Consistent) (id : CString) :
    (session.withClients clients).checkUniqueId id = session.checkUniqueId id := by
  apply Bool.eq_iff_iff.mpr
  rw [checkUniqueId_iff, checkUniqueId_iff]
  apply forall₂_congr
  intro itr online
  simp only [withClients, indistinct.registered itr.2 (consistent.onlineRegistered itr online)]

/-- A result over other records that are not distinguished afterwards either. -/
def TakenAlike (after : Session Text) (outputs : List (Output Text))
    (result : Option (Session Text × List (Output Text))) : Prop :=
  ∃ clients, result = some (after.withClients clients, outputs) ∧ after.Indistinct clients

/-- A client is enrolled alike, and the records stay indistinct. -/
theorem Indistinct.enroll {session : Session Text} {clients : ClientPtr → Client Text}
    (indistinct : session.Indistinct clients) (id : CString) :
    ∃ clients', (session.withClients clients).enroll id =
        ((session.enroll id).1.withClients clients', (session.enroll id).2) ∧
      (session.enroll id).1.Indistinct clients' := by
  unfold Session.enroll
  rw [indistinct.getClient]
  cases session.getClient id with
  | some ptr => exact ⟨clients, rfl, indistinct⟩
  | none => exact ⟨_, rfl, indistinct.register id⟩

/-- A connection is taken alike. -/
theorem Indistinct.connect {session : Session Text} {clients : ClientPtr → Client Text}
    (indistinct : session.Indistinct clients) (consistent : session.Consistent) {fd : Fd}
    {id : CString} {after : Session Text} {outputs : List (Output Text)}
    (stepped : session.connect fd id = some (after, outputs)) :
    TakenAlike after outputs ((session.withClients clients).connect fd id) := by
  cases unique : session.checkUniqueId id with
  | true =>
      rw [connect_unique unique] at stepped
      cases stepped
      rw [← indistinct.checkUniqueId consistent] at unique
      rw [connect_unique unique]
      obtain ⟨clients', same, indistinct'⟩ := indistinct.enroll id
      have member := enroll_ptr_mem session id
      rw [same]
      refine ⟨_, ?_, (indistinct'.modify member fun client =>
        { client with online := true, pendingMessages := [] }).of_records rfl rfl⟩
      refine congrArg some (Prod.ext rfl ?_)
      exact congrArg (List.map _) (indistinct'.pending _)
  | false =>
      rw [connect_refused unique] at stepped
      cases stepped
      rw [← indistinct.checkUniqueId consistent] at unique
      exact ⟨clients, connect_refused unique, indistinct.of_records rfl rfl⟩

/-- The end of a connection is taken alike. -/
theorem Indistinct.disconnect {session : Session Text} {clients : ClientPtr → Client Text}
    (indistinct : session.Indistinct clients) (consistent : session.Consistent) {fd : Fd}
    {after : Session Text} {outputs : List (Output Text)}
    (stepped : session.disconnect fd = some (after, outputs)) :
    TakenAlike after outputs ((session.withClients clients).disconnect fd) := by
  have searched : (session.withClients clients).onlineClients = session.onlineClients := rfl
  unfold Session.disconnect at stepped ⊢
  rw [searched]
  cases found : KeyedList.find Prod.fst fd session.onlineClients with
  | none =>
      rw [found] at stepped
      cases stepped
  | some itr =>
      rw [found] at stepped
      cases stepped
      have member := consistent.onlineRegistered itr (KeyedList.find_eq_some found).1
      exact ⟨_, rfl, (indistinct.modify member fun client =>
        { client with online := false }).of_records rfl rfl⟩

/-- A change of topics is taken alike. -/
theorem Indistinct.changeTopics {session : Session Text} {clients : ClientPtr → Client Text}
    (indistinct : session.Indistinct clients) (consistent : session.Consistent) {fd : Fd}
    {change : List Topic → List Topic} {after : Session Text} {outputs : List (Output Text)}
    (stepped : session.changeTopics fd change = some (after, outputs)) :
    TakenAlike after outputs ((session.withClients clients).changeTopics fd change) := by
  have searched : (session.withClients clients).onlineClients = session.onlineClients := rfl
  unfold Session.changeTopics at stepped ⊢
  rw [searched]
  cases found : KeyedList.find Prod.fst fd session.onlineClients with
  | none =>
      rw [found] at stepped
      cases stepped
  | some itr =>
      rw [found] at stepped
      cases stepped
      have member := consistent.onlineRegistered itr (KeyedList.find_eq_some found).1
      exact ⟨_, rfl, indistinct.modify member _⟩

/-- A subscription is taken alike. -/
theorem Indistinct.subscribe {session : Session Text} {clients : ClientPtr → Client Text}
    (indistinct : session.Indistinct clients) (consistent : session.Consistent) {fd : Fd}
    {topic : CString} {sf : Bool} {after : Session Text} {outputs : List (Output Text)}
    (stepped : session.subscribe fd topic sf = some (after, outputs)) :
    TakenAlike after outputs ((session.withClients clients).subscribe fd topic sf) :=
  indistinct.changeTopics consistent stepped

/-- The end of a subscription is taken alike. -/
theorem Indistinct.unsubscribe {session : Session Text} {clients : ClientPtr → Client Text}
    (indistinct : session.Indistinct clients) (consistent : session.Consistent) {fd : Fd}
    {topic : CString} {after : Session Text} {outputs : List (Output Text)}
    (stepped : session.unsubscribe fd topic = some (after, outputs)) :
    TakenAlike after outputs ((session.withClients clients).unsubscribe fd topic) :=
  indistinct.changeTopics consistent stepped

/-- A text is published alike. -/
theorem Indistinct.publish {session : Session Text} {clients : ClientPtr → Client Text}
    (indistinct : session.Indistinct clients) (consistent : session.Consistent) (topic : CString)
    (text : Text) :
    TakenAlike (session.publish topic text).1 (session.publish topic text).2
      (some ((session.withClients clients).publish topic text)) := by
  have stored : ((session.withClients clients).publish topic text).1 =
      (session.publish topic text).1.withClients fun ptr =>
        if ptr ∈ session.allClients then storeText topic text (clients ptr)
        else clients ptr := by
    rw [consistent.publish_eq]
    exact foldl_storeFor topic text (session.withClients clients) consistent.allClients_nodup
  have sent : (session.withClients clients).sendToOnline topic text =
      session.sendToOnline topic text := by
    unfold sendToOnline
    refine congrArg _ (List.filter_congr fun itr online => ?_)
    simp only [withClients, indistinct.registered itr.2 (consistent.onlineRegistered itr online)]
  refine ⟨_, congrArg some (Prod.ext stored sent), ?_⟩
  rw [consistent.publish_eq]
  constructor
  · intro ptr
    by_cases member : ptr ∈ session.allClients
    · simp only [member, if_true, indistinct.registered ptr member]
    · simp only [member, if_false, indistinct.topics]
  · intro ptr
    by_cases member : ptr ∈ session.allClients
    · simp only [member, if_true, indistinct.registered ptr member]
    · simp only [member, if_false, indistinct.pending]
  · intro ptr member
    simp only [indistinct.registered ptr member]

end Session

/-! ## The byte behind a topic -/

/-- The memory of a message is in its topic exactly when the topic fills its field. -/
theorem copiedTopic_memory_iff (buffer : ByteBuffer) (type : CString) :
    (∀ lastByte lastByte', copiedTopic buffer lastByte' type = copiedTopic buffer lastByte type) ↔
      0 ∈ buffer.contents 50 := by
  have full : ((buffer.contents 50).takeWhile fun byte => byte ≠ 0).length = 50 ↔
      0 ∉ buffer.contents 50 := by
    constructor
    · intro long terminated
      have whole := List.takeWhile_eq_self_iff.mp
        ((List.takeWhile_prefix _).eq_of_length (long.trans (buffer.length_contents 50).symm))
      simpa using whole 0 terminated
    · intro unterminated
      rw [List.takeWhile_eq_self_iff.mpr, ByteBuffer.length_contents]
      intro byte member
      simpa using fun zero : byte = 0 => unterminated (zero ▸ member)
  constructor
  · intro same
    by_contra unterminated
    have differ := same 0 1
    unfold copiedTopic at differ
    dsimp only at differ
    rw [if_pos ⟨full.mpr unterminated, by decide⟩, if_neg (by simp)] at differ
    simp at differ
  · intro terminated lastByte lastByte'
    have short := fun long => full.mp long terminated
    unfold copiedTopic
    rw [if_neg fun filled => short filled.1, if_neg fun filled => short filled.1]

/-- Where the topic ends in its field, the byte behind it does not matter. -/
theorem interpretDatagram_memory {buffer : ByteBuffer} (terminated : 0 ∈ buffer.contents 50)
    (sender : Sender) (lastByte lastByte' : UInt8) :
    interpretDatagram floatText buffer sender lastByte' =
      interpretDatagram floatText buffer sender lastByte := by
  have same := (copiedTopic_memory_iff buffer (decodePayload floatText buffer).1).mpr terminated
    lastByte lastByte'
  simp only [interpretDatagram, decodeUdpMessage, same]

/-! ## Steps over two memories -/

/-- The server over other client records. -/
def ServerState.withClients (server : ServerState) (clients : ClientPtr → Client CString) :
    ServerState :=
  { server with session := server.session.withClients clients }

/-- The same event, but for the memory of a message whose topic does not fill its field. -/
def SameOwnBytes (transition : Transition ServerState ServerEvent Transmission)
    (event : ServerEvent) : Prop :=
  event = transition.event ∨ ∃ sender bytes lastByte lastByte',
    transition.event = .datagram sender bytes lastByte ∧
      event = .datagram sender bytes lastByte' ∧
      0 ∈ (transition.before.buffer.receive bytes).contents 50

/-- The rest of a branch, once the bookkeeping has taken its step alike. -/
theorem ServerState.map_indistinct
    {result result' : Option (Session CString × List (Output CString))} {sMessage : ServerMessage}
    {buffer : ByteBuffer} {bytes : Output CString → Transmission}
    (alike : ∀ session sent, result = some (session, sent) →
      Session.TakenAlike session sent result') {after : ServerState} {outputs : List Transmission}
    (stepped : result.map (fun result => ((⟨result.1, sMessage, buffer⟩ : ServerState),
      result.2.map bytes)) = some (after, outputs)) :
    ∃ clients', result'.map (fun result => ((⟨result.1, sMessage, buffer⟩ : ServerState),
        result.2.map bytes)) = some (after.withClients clients', outputs) ∧
      after.session.Indistinct clients' := by
  obtain ⟨⟨session, sent⟩, taken, same⟩ := Option.map_eq_some_iff.mp stepped
  cases same
  obtain ⟨clients', taken', indistinct'⟩ := alike session sent taken
  refine ⟨clients', ?_, indistinct'⟩
  rw [taken', Option.map_some]
  rfl

/-- A step over records that are not distinguished sends the same and distinguishes none. -/
theorem ServerState.step_indistinct {server after : ServerState} {event : ServerEvent}
    {outputs : List Transmission} {clients : ClientPtr → Client CString}
    (consistent : server.session.Consistent) (indistinct : server.session.Indistinct clients)
    (stepped : server.step floatText event = some (after, outputs)) :
    ∃ clients', (server.withClients clients).step floatText event =
        some (after.withClients clients', outputs) ∧ after.session.Indistinct clients' := by
  cases event with
  | connection newsockfd bytes =>
      simp only [step, connection, withClients, indistinct.checkUniqueId consistent] at stepped ⊢
      exact map_indistinct (fun _ _ => indistinct.connect consistent) stepped
  | datagram sender bytes lastByte =>
      simp only [step, datagram, withClients] at stepped ⊢
      cases read : interpretDatagram floatText (server.buffer.receive bytes) sender lastByte with
      | none =>
          rw [read] at stepped
          cases stepped
          exact ⟨clients, rfl, indistinct⟩
      | some interpreted =>
          rw [read] at stepped
          cases stepped
          obtain ⟨clients', taken', indistinct'⟩ :=
            indistinct.publish consistent interpreted.1.topic interpreted.2
          refine ⟨clients', ?_, indistinct'⟩
          simp only [Option.some.inj taken']
  | stdin line =>
      cases stepped
      exact ⟨clients, rfl, indistinct⟩
  | received fd bytes =>
      simp only [step, received] at stepped ⊢
      split at stepped
      case isTrue ended =>
        rw [if_pos ended]
        exact map_indistinct (fun _ _ => indistinct.disconnect consistent) stepped
      case isFalse command =>
        rw [if_neg command]
        split at stepped
        case isTrue rejected =>
          cases stepped
          refine ⟨clients, ?_, indistinct⟩
          simp only [withClients, rejected, if_true]
        case isFalse accepted =>
          split at stepped
          case isTrue subscribes =>
            simp only [withClients, accepted, reduceCtorEq, if_false, subscribes, if_true]
            exact map_indistinct (fun _ _ => indistinct.subscribe consistent) stepped
          case isFalse unsubscribes =>
            simp only [withClients, accepted, reduceCtorEq, if_false, unsubscribes]
            exact map_indistinct (fun _ _ => indistinct.unsubscribe consistent) stepped

/-! ## Runs over two memories -/

/-- A run from another start on other events sends the same bytes step by step and leaves the
same texts stored for every id. -/
def BehavesAlike (floatText : FloatText)
    (trace : List (Transition ServerState ServerEvent Transmission)) (final start' : ServerState)
    (events' : List ServerEvent) : Prop :=
  ∃ trace' final', (serverMachine floatText).Run start' trace' final' ∧
    trace'.map Transition.event = events' ∧
    trace'.map Transition.outputs = trace.map Transition.outputs ∧
    ∀ id, final'.session.pendingOf id = final.session.pendingOf id

/-- The same texts are pending for each id. -/
theorem Session.Indistinct.pendingOf {session : Session Text} {clients : ClientPtr → Client Text}
    (indistinct : session.Indistinct clients) (id : CString) :
    (session.withClients clients).pendingOf id = session.pendingOf id := by
  unfold Session.pendingOf
  rw [indistinct.getClient]
  cases session.getClient id with
  | none => rfl
  | some ptr => exact indistinct.pending ptr

/-- An event with the same bytes is admissible over other records, too. -/
theorem SameOwnBytes.admissible {transition : Transition ServerState ServerEvent Transmission}
    {event : ServerEvent} (same : SameOwnBytes transition event) {server : ServerState}
    (admitted : server.Admissible transition.event) (clients : ClientPtr → Client CString) :
    (server.withClients clients).Admissible event := by
  obtain rfl | ⟨sender, bytes, lastByte, lastByte', occurred, rfl, _⟩ := same
  · cases occurred : transition.event <;> rwa [occurred] at admitted
  · rwa [occurred] at admitted

/-- Events with the same bytes are handled alike. -/
theorem SameOwnBytes.step {transition : Transition ServerState ServerEvent Transmission}
    {event : ServerEvent} (same : SameOwnBytes transition event) {server : ServerState}
    (buffer : server.buffer = transition.before.buffer) :
    server.step floatText event = server.step floatText transition.event := by
  obtain rfl | ⟨sender, bytes, lastByte, lastByte', occurred, rfl, terminated⟩ := same
  · rfl
  · rw [← buffer] at terminated
    rw [occurred]
    simp only [ServerState.step, ServerState.datagram,
      interpretDatagram_memory terminated sender lastByte lastByte']

/-- Of all the memory the server allocates only the two lists of a new client and the byte
behind a topic that fills its field matter. -/
theorem behavesAlike_of_lists {start final : ServerState}
    {trace : List (Transition ServerState ServerEvent Transmission)}
    (initial : start.session.Initial) (run : (serverMachine floatText).Run start trace final)
    {clients : ClientPtr → Client CString}
    (topics : ∀ ptr, (clients ptr).topics = (start.session.clients ptr).topics)
    (pending : ∀ ptr, (clients ptr).pendingMessages = (start.session.clients ptr).pendingMessages)
    {events' : List ServerEvent} (same : List.Forall₂ SameOwnBytes trace events') :
    BehavesAlike floatText trace final (start.withClients clients) events' := by
  let Related (server server' : ServerState) : Prop := server.session.Consistent ∧
    ∃ clients, server' = server.withClients clients ∧ server.session.Indistinct clients
  have related : Related start (start.withClients clients) := by
    refine ⟨initial.consistent, clients, rfl, topics, pending, fun ptr member => ?_⟩
    rw [initial.nobodyKnown] at member
    cases member
  obtain ⟨trace', final', run', events, outputs, _, clients', rfl, indistinct⟩ :=
    @Machine.Run.lockstep _ _ _ _ Related SameOwnBytes (by
      rintro transition genuine other event ⟨consistent, clients, rfl, indistinct⟩ same
      obtain ⟨clients', stepped, indistinct'⟩ :=
        ServerState.step_indistinct consistent indistinct genuine.stepped
      have moved : (transition.before.withClients clients).step floatText event =
          (transition.before.withClients clients).step floatText transition.event := same.step rfl
      exact ⟨same.admissible genuine.admitted clients, _, moved.trans stepped,
        ServerState.consistent_preserved _ genuine consistent, clients', rfl, indistinct'⟩)
      _ _ _ _ _ run related same
  exact ⟨trace', _, run', events, outputs, indistinct.pendingOf⟩

/-! ## Runs with a client -/

/-- What an event brings from outside, without the memory of its message. -/
def ServerEvent.input : ServerEvent → ServerEvent
  | .datagram sender bytes _ => .datagram sender bytes 0
  | event => event

/-- A client connects. -/
def ServerEvent.IsConnection : ServerEvent → Prop
  | .connection _ _ => True
  | _ => False

/-- Whatever the memory of client records and messages held before, the same inputs make the
server send and store the same. -/
def IndependentOfMemory (floatText : FloatText) (start : ServerState)
    (trace : List (Transition ServerState ServerEvent Transmission)) (final : ServerState) : Prop :=
  ∀ (clients : ClientPtr → Client CString) (events' : List ServerEvent),
    List.Forall₂ (fun transition event => event.input = transition.event.input) trace events' →
      BehavesAlike floatText trace final (start.withClients clients) events'

/-- Until a client connects nobody is watched, sent to or stored for. -/
theorem ServerState.step_of_nobody {server : ServerState} (initial : server.session.Initial)
    {event : ServerEvent} (admitted : server.Admissible event) (quiet : ¬ event.IsConnection) :
    ∃ buffer, server.step floatText event = some ({ server with buffer := buffer }, []) := by
  cases event with
  | connection newsockfd bytes => exact absurd trivial quiet
  | datagram sender bytes lastByte =>
      simp only [step, datagram]
      cases interpretDatagram floatText (server.buffer.receive bytes) sender lastByte with
      | none => exact ⟨_, rfl⟩
      | some interpreted =>
          refine ⟨(server.buffer.receive bytes).receive (interpreted.2 ++ [0]), ?_⟩
          simp [Session.publish, Session.sendToOnline, initial.nobodyKnown, initial.nobodyOnline]
  | stdin line => exact ⟨_, rfl⟩
  | received fd bytes =>
      obtain ⟨ptr, online⟩ := (initial.consistent.watched fd).mp admitted.1
      rw [initial.nobodyOnline] at online
      cases online

/-- The first client is sent the list its record held when it was allocated. -/
theorem ServerState.first_connection {server after : ServerState}
    (initial : server.session.Initial) {event : ServerEvent} {outputs : List Transmission}
    (connects : event.IsConnection) (stepped : server.step floatText event = some (after, outputs)) :
    outputs.length =
      (server.session.clients server.session.allocated).pendingMessages.length := by
  cases event with
  | connection newsockfd bytes =>
      obtain ⟨⟨session, sent⟩, taken, same⟩ := Option.map_eq_some_iff.mp stepped
      cases same
      have unique (id : CString) : server.session.checkUniqueId id = true := by
        simp [Session.checkUniqueId, initial.nobodyOnline]
      have unknown (id : CString) : server.session.getClient id = none := by
        rw [Session.getClient_eq_none_iff, initial.nobodyKnown]
        exact fun ptr member => absurd member List.not_mem_nil
      rw [Session.connect_unique (unique _)] at taken
      cases taken
      simp [Session.enroll, unknown, Session.register]
  | datagram sender bytes lastByte => cases connects
  | stdin line => cases connects
  | received fd bytes => cases connects

/-- Without a client the bookkeeping stays as it started. -/
theorem session_of_quiet {start final : ServerState}
    {trace : List (Transition ServerState ServerEvent Transmission)}
    (initial : start.session.Initial) (run : (serverMachine floatText).Run start trace final)
    (quiet : ∀ event ∈ trace.map Transition.event, ¬ event.IsConnection) :
    final.session = start.session := by
  induction run with
  | refl => rfl
  | @step trace state event outputs next prior admitted stepped ih =>
      simp only [List.map_append, List.forall_mem_append, List.map_singleton,
        List.forall_mem_singleton] at quiet
      have same := ih quiet.1
      obtain ⟨buffer, silent⟩ :=
        @ServerState.step_of_nobody floatText _ (same ▸ initial) _ admitted quiet.2
      rw [← same]
      exact congrArg (fun result => result.1.session) (Option.some.inj (stepped.symm.trans silent))

/-- Two runs on the same events send the same only if no client connects, when the next
record to be allocated holds more texts in one memory than in the other. -/
theorem quiet_of_same_outputs {start start' final final' : ServerState}
    {trace trace' : List (Transition ServerState ServerEvent Transmission)}
    (initial : start.session.Initial) (initial' : start'.session.Initial)
    (differ : (start'.session.clients start'.session.allocated).pendingMessages.length ≠
      (start.session.clients start.session.allocated).pendingMessages.length)
    (run : (serverMachine floatText).Run start trace final)
    (run' : (serverMachine floatText).Run start' trace' final')
    (events : trace'.map Transition.event = trace.map Transition.event)
    (outputs : trace'.map Transition.outputs = trace.map Transition.outputs) :
    ∀ event ∈ trace.map Transition.event, ¬ event.IsConnection := by
  induction run generalizing trace' final' with
  | refl => simp
  | @step trace state event sent next prior admitted stepped ih =>
      rw [List.map_append] at events outputs
      obtain ⟨front, back, rfl, sameFront, sameBack⟩ := List.map_eq_append_iff.mp events
      obtain ⟨last, rfl, sameEvent⟩ := List.map_eq_singleton_iff.mp sameBack
      rw [List.map_append] at outputs
      obtain ⟨sentFront, sentLast⟩ := List.append_inj' outputs rfl
      obtain ⟨prior', genuine⟩ := run'.prior rfl
      have quiet := ih prior' sameFront sentFront
      simp only [List.map_append, List.forall_mem_append, List.map_singleton,
        List.forall_mem_singleton]
      refine ⟨quiet, fun connects => differ ?_⟩
      have unchanged := session_of_quiet initial prior quiet
      have unchanged' := session_of_quiet initial' prior' (sameFront ▸ quiet)
      have length := ServerState.first_connection (unchanged ▸ initial) connects stepped
      have length' := ServerState.first_connection (unchanged' ▸ initial')
        (sameEvent ▸ connects) genuine.stepped
      rw [unchanged] at length
      rw [unchanged'] at length'
      rw [← length, ← length', List.singleton_inj.mp sentLast]

/-- A start is a start over any records. -/
theorem Session.Initial.withClients {session : Session Text} (initial : session.Initial)
    (clients : ClientPtr → Client Text) : (session.withClients clients).Initial :=
  ⟨initial.nobodyOnline, initial.nobodyKnown, initial.watched, initial.opened, initial.fdmax⟩

/-- Nothing is pending where nobody is known. -/
theorem pendingOf_of_nobody {session : Session Text} (initial : session.Initial) (id : CString) :
    session.pendingOf id = [] := by
  simp [Session.pendingOf, Session.getClient, initial.nobodyKnown, KeyedList.find]

/-- Events with the same input differ at most in the memory of a message. -/
theorem ServerEvent.eq_or_datagram {event event' : ServerEvent} (same : event'.input = event.input) :
    event' = event ∨ ∃ sender bytes lastByte lastByte',
      event = .datagram sender bytes lastByte ∧ event' = .datagram sender bytes lastByte' := by
  cases event <;> cases event' <;> simp_all [input]

/-- Before a client connects every input has its step over any memory, and it sends nothing. -/
theorem step_of_same_input {server server' : ServerState} (initial : server.session.Initial)
    (initial' : server'.session.Initial) {event event' : ServerEvent}
    (admitted : server.Admissible event) (quiet : ¬ event.IsConnection)
    (same : event'.input = event.input) :
    server'.Admissible event' ∧ ∃ buffer,
      server'.step floatText event' = some ({ server' with buffer := buffer }, []) := by
  obtain rfl | ⟨sender, bytes, lastByte, lastByte', rfl, rfl⟩ := ServerEvent.eq_or_datagram same
  · have admitted' : server'.Admissible event' := by
      cases event' with
      | connection newsockfd bytes => exact absurd trivial quiet
      | datagram sender bytes lastByte => exact admitted
      | stdin line => exact admitted
      | received fd bytes =>
          obtain ⟨ptr, online⟩ := (initial.consistent.watched fd).mp admitted.1
          rw [initial.nobodyOnline] at online
          cases online
    exact ⟨admitted', ServerState.step_of_nobody initial' admitted' quiet⟩
  · have admitted' : server'.Admissible (.datagram sender bytes lastByte') := admitted
    exact ⟨admitted', ServerState.step_of_nobody initial' admitted' not_false⟩

/-- The memory does not matter to a run exactly when no client connects in it. -/
theorem independentOfMemory_iff {start final : ServerState}
    {trace : List (Transition ServerState ServerEvent Transmission)}
    (initial : start.session.Initial) (run : (serverMachine floatText).Run start trace final) :
    IndependentOfMemory floatText start trace final ↔
      ∀ transition ∈ trace, ¬ transition.event.IsConnection := by
  constructor
  · intro independent
    -- One more text in the record that is allocated next, and the same events.
    let longer : ClientPtr → Client CString := fun ptr =>
      { start.session.clients ptr with
        pendingMessages := [] :: (start.session.clients ptr).pendingMessages }
    have same : List.Forall₂ (fun transition event =>
        event.input = transition.event.input) trace (trace.map Transition.event) :=
      List.forall₂_map_right_iff.mpr (List.forall₂_same.mpr fun _ _ => rfl)
    obtain ⟨trace', final', run', events, outputs, _⟩ := independent longer _ same
    have initial' : (start.withClients longer).session.Initial := initial.withClients longer
    have quiet :=
      quiet_of_same_outputs initial initial' (Nat.succ_ne_self _) run run' events outputs
    exact fun transition member => quiet _ (List.mem_map_of_mem member)
  · intro quiet clients events' same
    have initial' : (start.withClients clients).session.Initial := initial.withClients clients
    have matched := (List.forall₂_and_left trace events').mpr ⟨quiet, same⟩
    let Nobody (server server' : ServerState) : Prop :=
      server.session.Initial ∧ server'.session.Initial
    obtain ⟨trace', final', run', events, outputs, initialFinal, initialFinal'⟩ :=
      @Machine.Run.lockstep _ _ _ _ Nobody _ (by
        rintro transition genuine other event ⟨before, before'⟩ ⟨quiet, same⟩
        obtain ⟨buffer, silent⟩ := ServerState.step_of_nobody before genuine.admitted quiet
        obtain ⟨admitted', buffer', silent'⟩ :=
          step_of_same_input before before' genuine.admitted quiet same
        obtain ⟨sameAfter, sameOutputs⟩ :=
          Prod.mk.inj (Option.some.inj (genuine.stepped.symm.trans silent))
        rw [sameAfter, sameOutputs]
        exact ⟨admitted', _, silent', before, before'⟩)
        _ _ _ _ _ run ⟨initial, initial'⟩ matched
    refine ⟨trace', final', run', events, outputs, fun id => ?_⟩
    rw [pendingOf_of_nobody initialFinal', pendingOf_of_nobody initialFinal]

/-- The run in which `A` connects. -/
def connectedTrace : List (Transition ServerState ServerEvent Transmission) :=
  [⟨sampleServer, sampleConnection, (((serverMachine fun _ _ _ => []).step sampleServer
    sampleConnection).get sampleConnection_steps).2, connectedServer⟩]

theorem connectedTrace_run :
    (serverMachine fun _ _ _ => []).Run sampleServer connectedTrace connectedServer :=
  Machine.run_single sampleConnection_admitted sampleConnection_steps

/-- The memory matters to the run in which `A` connects. -/
theorem independentOfMemory_iff_sample :
    IndependentOfMemory (fun _ _ _ => []) sampleServer connectedTrace connectedServer ↔
      ∀ transition ∈ connectedTrace, ¬ transition.event.IsConnection :=
  independentOfMemory_iff sampleServer_initial connectedTrace_run

/-- Records of memory in which a list with the text `hi` was left. -/
def leftoverClients : ClientPtr → Client CString := fun _ => ⟨[], false, [], [[104, 105]]⟩

/-- Over zeroed memory the first client is sent nothing, over other memory a text nobody
has published. -/
theorem first_client_sent_leftovers :
    sampleServer.session.Initial ∧
      (serverMachine fun _ _ _ => []).Run sampleServer connectedTrace connectedServer ∧
      (sampleServer.step (fun _ _ _ => []) sampleConnection).map Prod.snd = some [] ∧
      ((sampleServer.withClients leftoverClients).step (fun _ _ _ => []) sampleConnection).map
        Prod.snd = some [⟨5, [104, 105]⟩] ∧
      ¬ IndependentOfMemory (fun _ _ _ => []) sampleServer connectedTrace connectedServer := by
  refine ⟨sampleServer_initial, connectedTrace_run, by decide +kernel, by decide +kernel, ?_⟩
  intro independent
  obtain ⟨trace', final', run', events, outputs, _⟩ :=
    independent leftoverClients [sampleConnection] (.cons rfl .nil)
  have quiet := quiet_of_same_outputs sampleServer_initial
    (sampleServer_initial.withClients leftoverClients) (by decide) connectedTrace_run run' events
    outputs
  exact quiet sampleConnection List.mem_cons_self trivial

end CommunicationProtocols.Server
