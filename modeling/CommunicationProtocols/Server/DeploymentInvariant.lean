import CommunicationProtocols.Server.Deployment
import CommunicationProtocols.Server.SentLines

/-!
# The system's invariant

The server's map and the connections agree: a socket belongs to the client of an id exactly
if the connection on it was accepted under that id. An accepted subscriber has printed what
it has received, and a connection the server has closed has no subscriber any more.
-/

namespace CommunicationProtocols.Server

open Library

/-! ## The invariant -/

namespace Deployment

open Connection

/-- The connections agree with the server's map, and every one of them is sound. -/
structure Agrees (deployment : Deployment) (session : Session CString) : Prop where
  distinct : KeyedList.Distinct Connection.fd deployment.connections
  opened : ∀ connection ∈ deployment.connections, connection.fd ∈ session.openFds
  owner : ∀ fd id, session.ownerOf fd = some id ↔
    ∃ connection ∈ deployment.connections,
      connection.fd = fd ∧ connection.accepted = true ∧ connection.id = id
  ended : ∀ connection ∈ deployment.closed, ¬connection.Running
  sound : ∀ connection ∈ deployment.connections ++ deployment.closed, connection.Sound

/-- The server and the connections agree, and what waits for a client are strings. -/
structure Linked (deployment : Deployment) : Prop where
  clean : deployment.server.session.Clean
  pendingWhole : ∀ id, ∀ text ∈ deployment.server.session.pendingOf id, 0 ∉ text
  agrees : deployment.Agrees deployment.server.session

/-- At the start the server and the connections are linked. -/
theorem Initial.linked {deployment : Deployment} (initial : deployment.Initial) :
    deployment.Linked where
  clean := initial.session.clean initial.fresh
  pendingWhole id text member := by
    have unknown : deployment.server.session.getClient id = none := by
      simp [Session.getClient, initial.session.nobodyKnown, KeyedList.find]
    rw [Session.pendingOf_of_unknown unknown] at member
    cases member
  agrees := {
    distinct := by simp [KeyedList.Distinct, initial.nobody]
    opened := by simp [initial.nobody]
    owner := fun fd id => by
      simp [Session.ownerOf, initial.session.nobodyOnline, initial.nobody, KeyedList.find]
    ended := by simp [initial.nobodyLeft]
    sound := by simp [initial.nobody, initial.nobodyLeft] }

variable {floatText : FloatText} {deployment next : Deployment} {session : Session CString}
  {event : Event} {outputs : List Transmission}

/-! ## What happens outside the server -/

/-- A change of the connection on one descriptor that keeps what the server knows of it. -/
theorem Agrees.onFd (agrees : deployment.Agrees session) {fd : Fd}
    {change : Connection → Connection}
    (sameFd : ∀ connection, (change connection).fd = connection.fd)
    (sameAnswer : ∀ connection, (change connection).accepted = connection.accepted)
    (sameId : ∀ connection, (change connection).id = connection.id)
    (sound : ∀ connection ∈ deployment.connections, connection.fd = fd →
      (change connection).Sound) : (deployment.onFd fd change).Agrees session where
  distinct := by
    have fds : (deployment.onFd fd change).connections.map Connection.fd =
        deployment.connections.map Connection.fd := by
      rw [Deployment.onFd, List.map_map]
      refine List.map_congr_left fun connection _ => ?_
      simp only [Function.comp_apply, apply_ite Connection.fd, sameFd, ite_self]
    rw [KeyedList.Distinct, fds]
    exact agrees.distinct
  opened connection member := by
    obtain ⟨before, earlier, rfl⟩ := List.mem_map.mp member
    simp only [apply_ite Connection.fd, sameFd, ite_self]
    exact agrees.opened before earlier
  owner other id := by
    rw [Deployment.onFd, agrees.owner]
    simp only [List.mem_map, exists_exists_and_eq_and, apply_ite Connection.fd,
      apply_ite Connection.id, apply_ite Connection.accepted, sameFd, sameAnswer, sameId, ite_self]
  ended := agrees.ended
  sound connection member := by
    rcases List.mem_append.mp member with still | gone
    · obtain ⟨before, earlier, rfl⟩ := List.mem_map.mp still
      split
      case isTrue same => exact sound before earlier same
      case isFalse => exact agrees.sound before (List.mem_append_left _ earlier)
    · exact agrees.sound connection (List.mem_append_right _ gone)

/-- The connection that is looked up is the only one on its descriptor. -/
theorem Agrees.connectionOn (agrees : deployment.Agrees session) {fd : Fd}
    {connection other : Connection} (found : deployment.connectionOn fd = some connection)
    (member : other ∈ deployment.connections) (same : other.fd = fd) : other = connection := by
  have first := KeyedList.find_of_mem agrees.distinct member
  rw [same] at first
  exact Option.some.inj (first.symm.trans found)

/-- The server reads from accepted connections only. -/
theorem Agrees.served (agrees : deployment.Agrees session) (consistent : session.Consistent)
    {fd : Fd} (reported : session.Reports fd) (n : Nat) :
    (deployment.onFd fd (Connection.served n)).Agrees session := by
  obtain ⟨ptr, online⟩ := (consistent.watched fd).mp reported
  obtain ⟨connection, isOpen, there, accepted, -⟩ :=
    (agrees.owner fd _).mp (Session.ownerOf_of_mem consistent online)
  refine agrees.onFd (fun _ => rfl) (fun _ => rfl) (fun _ => rfl) fun other member same => ?_
  obtain rfl := List.inj_on_of_nodup_map agrees.distinct member isOpen (same.trans there.symm)
  exact (agrees.sound other (List.mem_append_left _ member)).served accepted n

/-- Receiving bytes keeps the agreement. -/
theorem Agrees.receives (agrees : deployment.Agrees session) {fd : Fd} {n : Nat}
    (admitted : deployment.Admits (.subscriberReads fd n)) :
    (deployment.onFd fd (Connection.receives n)).Agrees session := by
  obtain ⟨positive, fits, connection, found, running, there⟩ := admitted
  refine agrees.onFd (fd_receives n) (accepted_receives n) (id_receives n)
    fun other member same => ?_
  obtain rfl := agrees.connectionOn found member same
  exact (agrees.sound other (List.mem_append_left _ member)).receives running positive fits there

/-- Typing a line keeps the agreement. -/
theorem Agrees.types (agrees : deployment.Agrees session) {fd : Fd} {line : CString}
    (admitted : deployment.Admits (.subscriberTypes fd line)) :
    (deployment.onFd fd fun connection => connection.round (.line line)).Agrees session := by
  obtain ⟨_, connection, found, running⟩ := admitted
  refine agrees.onFd (fun other => fd_round other _) (fun other => accepted_round other _)
    (fun other => id_round other _) fun other member same => ?_
  obtain rfl := agrees.connectionOn found member same
  exact (agrees.sound other (List.mem_append_left _ member)).types running line

/-- The new connection agrees with what the server answers. -/
theorem Agrees.entered {after : Session CString} (agrees : deployment.Agrees session)
    (same : deployment.server.session = session) (consistent : session.Consistent) {fd : Fd}
    (closed : fd ∉ session.openFds) (id : CString) (memory : ByteBuffer)
    (opened : after.openFds = session.openAfter (.connect fd id))
    (owner : ∀ other, after.ownerOf other = session.ownerAfter other (.connect fd id)) :
    (deployment.entered fd id memory).Agrees after where
  distinct := by
    refine KeyedList.distinct_cons_iff.mpr ⟨fun connection member there => ?_, agrees.distinct⟩
    have isOpen := agrees.opened connection member
    rw [there] at isOpen
    exact closed isOpen
  opened connection member := by
    rw [opened]
    rcases List.mem_cons.mp member with rfl | earlier
    · exact Finset.mem_insert_self _ _
    · exact Finset.mem_insert_of_mem (agrees.opened connection earlier)
  owner other id' := by
    rw [owner, Session.ownerAfter, Deployment.entered, List.exists_mem_cons_iff, ← agrees.owner,
      same]
    by_cases here : other = fd
    · rw [here, Session.ownerOf_of_closed consistent closed]
      cases session.checkUniqueId id with
      | true => simp [Connection.start]
      | false => simp [Connection.start]
    · have elsewhere : ¬(Connection.start fd id (session.checkUniqueId id) memory).fd = other :=
        fun there => here there.symm
      rw [if_neg (fun both => here both.1)]
      simp only [elsewhere, false_and, false_or]
  ended := agrees.ended
  sound connection member := by
    rcases List.mem_append.mp member with still | gone
    · rcases List.mem_cons.mp still with rfl | earlier
      · exact Connection.start_sound _ _ _ _
      · exact agrees.sound connection (List.mem_append_left _ earlier)
    · exact agrees.sound connection (List.mem_append_right _ gone)

/-- The connections that are left when a socket is closed. -/
theorem Agrees.left {after : Session CString} (agrees : deployment.Agrees session) {fd : Fd}
    {connection : Connection} (found : deployment.connectionOn fd = some connection)
    (stopped : ¬connection.Running) (opened : after.openFds = session.openAfter (.disconnect fd))
    (owner : ∀ other, after.ownerOf other = session.ownerAfter other (.disconnect fd)) :
    (deployment.left fd).Agrees after := by
  have members {other : Connection} : other ∈ (deployment.left fd).connections ↔
      other ∈ deployment.connections ∧ other.fd ≠ fd := KeyedList.mem_remove_iff agrees.distinct
  have gone : (deployment.left fd).closed = connection :: deployment.closed := by
    rw [Deployment.left, found]
    rfl
  constructor
  case distinct => exact KeyedList.distinct_remove fd agrees.distinct
  case opened =>
    intro other member
    obtain ⟨earlier, differs⟩ := members.mp member
    rw [opened]
    exact Finset.mem_erase.mpr ⟨differs, agrees.opened other earlier⟩
  case owner =>
    intro other id
    rw [owner, Session.ownerAfter]
    split
    case isTrue here =>
      refine iff_of_false (fun impossible => by cases impossible) ?_
      rintro ⟨connection', member, there, -⟩
      exact (members.mp member).2 (there.trans here)
    case isFalse elsewhere =>
      rw [agrees.owner]
      constructor
      · rintro ⟨connection', member, rfl, answer⟩
        exact ⟨connection', members.mpr ⟨member, elsewhere⟩, rfl, answer⟩
      · rintro ⟨connection', member, there, answer⟩
        exact ⟨connection', (members.mp member).1, there, answer⟩
  case ended =>
    rw [gone]
    exact List.forall_mem_cons.mpr ⟨stopped, agrees.ended⟩
  case sound =>
    rw [gone]
    intro other member
    refine agrees.sound other ?_
    rcases List.mem_append.mp member with still | closed
    · exact List.mem_append_left _ (members.mp still).1
    · rcases List.mem_cons.mp closed with rfl | earlier
      · exact List.mem_append_left _ (KeyedList.find_eq_some found).1
      · exact List.mem_append_right _ earlier

/-- What is sent into the streams leaves the agreement alone. -/
theorem Agrees.hears {after : ServerState} (agrees : deployment.Agrees after.session)
    (whole : ∀ transmission ∈ outputs, ∀ id,
      after.session.ownerOf transmission.fd = some id → 0 ∉ transmission.bytes) :
    Agrees ⟨after, deployment.connections.map (Connection.hears outputs), deployment.closed⟩
      after.session where
  distinct := by
    rw [KeyedList.Distinct, List.map_map]
    exact agrees.distinct
  opened connection member := by
    obtain ⟨before, earlier, rfl⟩ := List.mem_map.mp member
    exact agrees.opened before earlier
  owner fd id := by
    rw [agrees.owner]
    simp only [List.mem_map, exists_exists_and_eq_and]
    rfl
  ended := agrees.ended
  sound connection member := by
    rcases List.mem_append.mp member with still | gone
    · obtain ⟨before, earlier, rfl⟩ := List.mem_map.mp still
      refine (agrees.sound before (List.mem_append_left _ earlier)).hears ?_
      intro accepted transmission sent same
      refine whole transmission sent before.id ((agrees.owner _ _).mpr ?_)
      exact ⟨before, earlier, same.symm, accepted, rfl⟩
    · exact agrees.sound connection (List.mem_append_right _ gone)

/-! ## Steps and runs -/

/-- What happens before the server's turn leaves the server. -/
theorem server_prepare (deployment : Deployment) (event : Event) :
    (deployment.prepare event).server = deployment.server := by
  cases event <;> rfl

/-- A step is outside the server, or it is a round of the server. -/
theorem step_cases (stepped : deployment.step floatText event = some (next, outputs)) :
    (deployment.serverEvent event = none ∧ next = deployment.prepare event ∧ outputs = []) ∨
      ∃ found after, deployment.serverEvent event = some found ∧
        deployment.server.step floatText found = some (after, outputs) ∧
        next = ⟨after, (deployment.prepare event).connections.map (hears outputs),
          (deployment.prepare event).closed⟩ := by
  rw [Deployment.step] at stepped
  cases finds : deployment.serverEvent event with
  | none =>
      rw [finds] at stepped
      cases stepped
      exact .inl ⟨rfl, rfl, rfl⟩
  | some found =>
      rw [finds] at stepped
      dsimp only at stepped
      rw [server_prepare] at stepped
      obtain ⟨⟨after, sent⟩, taken, same⟩ := Option.map_eq_some_iff.mp stepped
      cases same
      exact .inr ⟨found, after, rfl, taken, rfl⟩

/-- What can happen to the system can happen to the server. -/
theorem Admits.server {found : ServerEvent} (admitted : deployment.Admits event)
    (finds : deployment.serverEvent event = some found) : deployment.server.Admissible found := by
  cases event with
  | connects newsockfd id memory =>
      cases finds
      exact ⟨admitted.1, id, admitted.2, rfl⟩
  | datagram sender bytes lastByte =>
      cases finds
      exact admitted
  | stdin line =>
      cases finds
      exact admitted
  | serverReads fd n =>
      obtain ⟨connection, _, rfl⟩ := Option.map_eq_some_iff.mp finds
      obtain ⟨reported, _, fits, _⟩ := admitted
      exact ⟨reported, (List.length_take_le _ _).trans_lt fits⟩
  | serverCloses fd =>
      cases finds
      exact ⟨admitted.1, by decide⟩
  | subscriberReads fd n => cases finds
  | subscriberTypes fd line => cases finds

/-- An event that changes no socket keeps the agreement. -/
theorem Agrees.of_quiet {found : ServerEvent} {after : ServerState} (linked : deployment.Linked)
    (admitted : deployment.server.Admissible found) (quiet : found.Quiet)
    (stepped : deployment.server.step floatText found = some (after, outputs))
    {prepared : Deployment} (agrees : prepared.Agrees deployment.server.session) :
    prepared.Agrees after.session := by
  have consistent := linked.clean.consistent
  have opened := ServerState.step_open consistent admitted stepped
  rw [(ServerState.meaning_quiet quiet 0).2] at opened
  have owner (fd : Fd) : after.session.ownerOf fd = deployment.server.session.ownerOf fd :=
    (ServerState.step_owner consistent admitted stepped fd).trans
      (ServerState.meaning_quiet quiet fd).1
  exact { agrees with
    opened := by
      rw [opened]
      exact agrees.opened
    owner := fun fd => by
      rw [owner]
      exact agrees.owner fd }

/-- Before its outputs are sent, the connections agree with where the server has got to. -/
theorem Linked.prepare {found : ServerEvent} {after : ServerState} (linked : deployment.Linked)
    (admitted : deployment.Admits event) (finds : deployment.serverEvent event = some found)
    (stepped : deployment.server.step floatText found = some (after, outputs)) :
    (deployment.prepare event).Agrees after.session := by
  have possible := admitted.server finds
  have consistent := linked.clean.consistent
  have opened := ServerState.step_open consistent possible stepped
  have owner := ServerState.step_owner consistent possible stepped
  cases event with
  | connects newsockfd id memory =>
      cases finds
      have short : id.length < bufLen := admitted.2.1.trans_lt (by decide)
      have means : deployment.server.meaning floatText (.connection newsockfd (id ++ [0])) =
          some (.connect newsockfd id) := by
        rw [ServerState.meaning, ByteBuffer.string_receive_terminated _ short admitted.2.2]
      rw [means] at opened owner
      exact linked.agrees.entered rfl consistent admitted.1 id memory opened owner
  | datagram sender bytes lastByte =>
      cases finds
      exact .of_quiet linked possible trivial stepped linked.agrees
  | stdin line =>
      cases finds
      exact .of_quiet linked possible trivial stepped linked.agrees
  | serverReads fd n =>
      obtain ⟨connection, found, rfl⟩ := Option.map_eq_some_iff.mp finds
      obtain ⟨reported, positive, _, connection', found', there⟩ := admitted
      obtain rfl := Option.some.inj (found.symm.trans found')
      have nonempty : connection.toServer.inFlight.take n ≠ [] := by
        refine List.ne_nil_of_length_pos ?_
        rw [List.length_take]
        omega
      exact .of_quiet linked possible nonempty stepped
        (linked.agrees.served consistent reported n)
  | serverCloses fd =>
      cases finds
      obtain ⟨_, connection, found, _, stopped⟩ := admitted
      exact linked.agrees.left found stopped opened owner
  | subscriberReads fd n => cases finds
  | subscriberTypes fd line => cases finds

/-- Every step keeps the server and the connections linked. -/
theorem Linked.step (whole : floatText.Whole) (linked : deployment.Linked)
    (admitted : deployment.Admits event)
    (stepped : deployment.step floatText event = some (next, outputs)) : next.Linked := by
  rcases step_cases stepped with ⟨outside, rfl, -⟩ | ⟨found, after, finds, taken, rfl⟩
  · cases event with
    | subscriberReads fd n =>
        exact ⟨linked.clean, linked.pendingWhole, linked.agrees.receives admitted⟩
    | subscriberTypes fd line =>
        exact ⟨linked.clean, linked.pendingWhole, linked.agrees.types admitted⟩
    | serverReads fd n =>
        obtain ⟨_, _, _, connection, found, _⟩ := admitted
        rw [serverEvent, found] at outside
        cases outside
    | connects newsockfd id memory => cases outside
    | datagram sender bytes lastByte => cases outside
    | stdin line => cases outside
    | serverCloses fd => cases outside
  · obtain ⟨clean, pending, sent⟩ :=
      ServerState.step_whole whole linked.clean linked.pendingWhole (admitted.server finds) taken
    exact ⟨clean, pending, (linked.prepare admitted finds taken).hears sent⟩

/-- The server and the connections agree in every state the system reaches. -/
theorem linked_of_run (whole : floatText.Whole) {start final : Deployment}
    {trace : List (Transition Deployment Event Transmission)} (initial : start.Initial)
    (run : (deploymentMachine floatText).Run start trace final) : final.Linked :=
  run.invariant (fun _ genuine linked => linked.step whole genuine.admitted genuine.stepped)
    initial.linked

end Deployment

end CommunicationProtocols.Server
