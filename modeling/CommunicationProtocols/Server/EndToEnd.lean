import CommunicationProtocols.Server.Conservation
import CommunicationProtocols.Server.DeploymentInvariant
import CommunicationProtocols.Server.FloatPayload
import CommunicationProtocols.Server.Overruns
import CommunicationProtocols.Server.Residue

/-!
# From the datagram to the terminal

In any interleaving of the server and its subscribers every line a client is eligible for
is pending for it or is written to a stream of its own, once; and what a subscriber has
printed, together with what is under way to it, is what was written to its stream. At most
one subscriber runs under an id. The texts of the model have any length and those of the
server do not, so this is said of the runs in which no array of the server is overrun. A
subscriber's id reaches the server on its own, and the lists of a new record are empty.
-/

namespace CommunicationProtocols.Server

open Library

/-- The lines written to a connection, if it was accepted under an id. -/
def Connection.linesTo (id : CString) (connection : Connection) : Multiset CString :=
  if connection.accepted = true ∧ connection.id = id then connection.toClient.messages else 0

namespace Deployment

/-- The lines written to all connections that were accepted under an id. -/
def linesTo (deployment : Deployment) (id : CString) : Multiset CString :=
  ((deployment.connections ++ deployment.closed).map (Connection.linesTo id)).sum

/-- The line of a datagram for which the client of an id is eligible. -/
def eligibleLine (floatText : FloatText) (id : CString)
    (transition : Transition Deployment Event Transmission) : Multiset CString :=
  match transition.event with
  | .datagram sender bytes lastByte =>
      match interpretDatagram floatText (transition.before.server.buffer.receive bytes) sender
          lastByte with
      | some (message, line) =>
          if transition.before.server.session.Eligible id message.topic then {line} else 0
      | none => 0
  | _ => 0

/-- The subscribers that run and were accepted. -/
def active (deployment : Deployment) : List Connection :=
  (deployment.connections ++ deployment.closed).filter fun connection =>
    connection.accepted = true ∧ connection.Running

/-- No array of the server is overrun in its round on the event. -/
def Fits (floatText : FloatText) (deployment : Deployment) (event : Event) : Prop :=
  ∀ found ∈ deployment.serverEvent event, deployment.server.Fits floatText found

instance (floatText : FloatText) (deployment : Deployment) (event : Event) :
    Decidable (deployment.Fits floatText event) :=
  inferInstanceAs (Decidable (∀ found ∈ deployment.serverEvent event, _))

variable {floatText : FloatText} {deployment next : Deployment} {event : Event}
  {outputs : List Transmission}

/-! ## What is written to the streams -/

/-- What happens outside the server writes nothing to a subscriber. -/
theorem linesTo_onFd (deployment : Deployment) (fd : Fd) {change : Connection → Connection}
    {id : CString}
    (same : ∀ connection, (change connection).linesTo id = connection.linesTo id) :
    (deployment.onFd fd change).linesTo id = deployment.linesTo id := by
  rw [linesTo, linesTo, onFd, List.map_append, List.map_append, List.map_map]
  have kept : (deployment.connections.map (Connection.linesTo id ∘ fun connection =>
      if connection.fd = fd then change connection else connection)) =
        deployment.connections.map (Connection.linesTo id) := by
    refine List.map_congr_left fun connection _ => ?_
    simp only [Function.comp_apply, apply_ite (Connection.linesTo id), same, ite_self]
  rw [kept]

/-- Before the server's turn nothing is written. -/
theorem linesTo_prepare (admitted : deployment.Admits event) (id : CString) :
    (deployment.prepare event).linesTo id = deployment.linesTo id := by
  cases event with
  | connects newsockfd id' memory =>
      have nothing : (Connection.start newsockfd id'
          (deployment.server.session.checkUniqueId id') memory).linesTo id = 0 := ite_self 0
      rw [prepare, entered, linesTo, List.cons_append, List.map_cons, List.sum_cons, nothing,
        zero_add]
      rfl
  | datagram sender bytes lastByte => rfl
  | stdin line => rfl
  | serverReads fd n => exact linesTo_onFd deployment fd fun _ => rfl
  | serverCloses fd =>
      obtain ⟨_, connection, found, _⟩ := admitted
      have perm : ((deployment.left fd).connections ++ (deployment.left fd).closed).Perm
          (deployment.connections ++ deployment.closed) := by
        rw [left, found]
        exact List.perm_middle.trans ((KeyedList.perm_remove found).symm.append_right _)
      exact (perm.map _).sum_eq
  | subscriberReads fd n =>
      refine linesTo_onFd deployment fd fun connection => ?_
      rw [Connection.linesTo, Connection.linesTo, Connection.accepted_receives,
        Connection.id_receives]
      rfl
  | subscriberTypes fd line =>
      refine linesTo_onFd deployment fd fun connection => ?_
      rw [Connection.linesTo, Connection.linesTo, Connection.accepted_round,
        Connection.id_round, Connection.toClient_round]

/-- What a connection hears is added to its lines. -/
theorem linesTo_hears (id : CString) (outputs : List Transmission) (connection : Connection) :
    (connection.hears outputs).linesTo id = connection.linesTo id +
      if connection.accepted = true ∧ connection.id = id then
        (Connection.share connection.fd outputs : Multiset CString) else 0 := by
  change (if connection.accepted = true ∧ connection.id = id then
    ((connection.toClient.writeAll (Connection.share connection.fd outputs)).messages :
      Multiset CString) else 0) = _
  rw [Connection.linesTo, Channel.messages_writeAll]
  split
  · rfl
  · rfl

/-- What the accepted connections of an id hear of a step is what its session sends to
the client of the id. -/
theorem sum_share {after : Session CString} (agrees : deployment.Agrees after) (id : CString)
    (buffer : ByteBuffer) {sent : List (Output CString)}
    (refused : ∀ fd, .refuse fd ∈ sent → after.ownerOf fd = none) (before : Session CString)
    (event : Server.Event CString) :
    (deployment.connections.map fun connection =>
      if connection.accepted = true ∧ connection.id = id then
        (Connection.share connection.fd (sent.map (ServerState.transmission buffer)) :
          Multiset CString) else 0).sum = textsTo id ⟨before, event, sent, after⟩ := by
  induction sent with
  | nil => simp [Connection.share, textsTo]
  | cons output sent ih =>
      have later := ih fun fd member => refused fd (List.mem_cons_of_mem _ member)
      let first := ServerState.transmission buffer output
      have split (connection : Connection) :
          (if connection.accepted = true ∧ connection.id = id then
            (Connection.share connection.fd (first :: sent.map (ServerState.transmission buffer)) :
              Multiset CString) else 0) =
          (if connection.fd = first.fd ∧ connection.accepted = true ∧ connection.id = id then
            {first.bytes} else 0) +
          if connection.accepted = true ∧ connection.id = id then
            (Connection.share connection.fd (sent.map (ServerState.transmission buffer)) :
              Multiset CString) else 0 := by
        by_cases answer : connection.accepted = true ∧ connection.id = id
        · by_cases here : first.fd = connection.fd
          · simp [answer, here, Connection.share]
          · simp [answer, here, Ne.symm here, Connection.share]
        · simp [answer]
      have one := KeyedList.sum_map_ite_key agrees.distinct (agrees.owner first.fd id)
        ({first.bytes} : Multiset CString)
      rw [List.map_cons]
      change (deployment.connections.map fun connection =>
        if connection.accepted = true ∧ connection.id = id then
          (Connection.share connection.fd (first :: sent.map (ServerState.transmission buffer)) :
            Multiset CString) else 0).sum = _
      simp only [split]
      rw [List.sum_map_add, one, later]
      cases output with
      | send fd text =>
          simp only [textsTo, List.filterMap_cons, first, ServerState.transmission]
          split_ifs
          · rfl
          · exact zero_add _
      | refuse fd =>
          have unowned := refused fd List.mem_cons_self
          simp only [textsTo, List.filterMap_cons, first, ServerState.transmission, unowned]
          exact zero_add _

/-- A round of the server. -/
theorem linesTo_serve {session : ServerState} (outputs : List Transmission) (id : CString) :
    linesTo ⟨session, deployment.connections.map (Connection.hears outputs),
        deployment.closed⟩ id =
      deployment.linesTo id + (deployment.connections.map fun connection =>
        if connection.accepted = true ∧ connection.id = id then
          (Connection.share connection.fd outputs : Multiset CString) else 0).sum := by
  rw [linesTo, linesTo, List.map_append, List.map_append, List.sum_append, List.sum_append,
    List.map_map]
  have heard : (Connection.linesTo id ∘ Connection.hears outputs) = fun connection =>
      connection.linesTo id + if connection.accepted = true ∧ connection.id = id then
        (Connection.share connection.fd outputs : Multiset CString) else 0 :=
    funext (linesTo_hears id outputs)
  rw [heard, List.sum_map_add, add_right_comm]

/-! ## The balance -/

/-- The line a client is eligible for is the text its bookkeeping has for it. -/
theorem eligibleLine_eq {found : ServerEvent}
    (finds : deployment.serverEvent event = some found) (id : CString)
    {meant : Server.Event CString} {sent : List (Output CString)} {after : Session CString}
    (means : deployment.server.meaning floatText found = some meant) :
    eligibleLine floatText id ⟨deployment, event, outputs, next⟩ =
      eligibleText id ⟨deployment.server.session, meant, sent, after⟩ := by
  cases event with
  | datagram sender bytes lastByte =>
      cases finds
      obtain ⟨⟨message, line⟩, interpreted, rfl⟩ := Option.map_eq_some_iff.mp means
      simp only [eligibleLine, interpreted, eligibleText]
      split_ifs
      · rfl
      · rfl
  | connects newsockfd id' memory =>
      cases finds
      cases means
      rfl
  | stdin line =>
      cases finds
      cases means
  | serverReads fd n =>
      obtain ⟨connection, _, rfl⟩ := Option.map_eq_some_iff.mp finds
      simp only [ServerState.meaning] at means
      split_ifs at means <;> cases means <;> rfl
  | serverCloses fd =>
      cases finds
      cases means
      rfl
  | subscriberReads fd n => cases finds
  | subscriberTypes fd line => cases finds

/-- An event that means nothing to the server makes nobody eligible. -/
theorem eligibleLine_silent {found : ServerEvent}
    (finds : deployment.serverEvent event = some found) (id : CString)
    (silent : deployment.server.meaning floatText found = none) :
    eligibleLine floatText id ⟨deployment, event, outputs, next⟩ = 0 := by
  cases event with
  | datagram sender bytes lastByte =>
      cases finds
      have nothing := Option.map_eq_none_iff.mp silent
      simp only [eligibleLine, nothing]
  | _ => rfl

/-- Without a turn of the server there is no line. -/
theorem eligibleLine_outside (outside : deployment.serverEvent event = none) (id : CString) :
    eligibleLine floatText id ⟨deployment, event, outputs, next⟩ = 0 := by
  cases event with
  | datagram sender bytes lastByte => cases outside
  | _ => rfl

/-- A step adds to the lines written and pending the line the client is eligible for. -/
theorem balanced (id : CString) (transition : Transition Deployment Event Transmission)
    (genuine : (deploymentMachine floatText).Genuine transition)
    (linked : transition.before.Linked) :
    transition.after.linesTo id + (transition.after.server.session.pendingOf id : Multiset CString) =
      transition.before.linesTo id +
        (transition.before.server.session.pendingOf id : Multiset CString) +
          eligibleLine floatText id transition := by
  obtain ⟨before, event, outputs, after⟩ := transition
  have admitted : before.Admits event := genuine.admitted
  have stepped : before.step floatText event = some (after, outputs) := genuine.stepped
  have unchanged := linesTo_prepare admitted id
  rcases step_cases stepped with ⟨outside, rfl, -⟩ | ⟨found, server, finds, taken, rfl⟩
  · rw [eligibleLine_outside outside, unchanged, server_prepare, add_zero]
  · have agrees := linked.prepare admitted finds taken
    have possible := admitted.server finds
    rw [linesTo_serve, unchanged]
    rcases ServerState.step_cases possible taken with
      ⟨silent, same, rfl⟩ | ⟨meant, sent, buffer, means, session, rfl⟩
    · have nothing : ((before.prepare event).connections.map fun connection =>
          if connection.accepted = true ∧ connection.id = id then
            (Connection.share connection.fd [] : Multiset CString) else 0).sum = 0 := by
        simp [Connection.share]
      rw [eligibleLine_silent finds id silent, same, nothing, add_zero, add_zero]
    · have balance := Session.balanced id _ session linked.clean
      rw [sum_share agrees id buffer
          (fun fd member => Session.refused_unowned session linked.clean.consistent member)
          before.server.session meant,
        eligibleLine_eq finds id means, add_assoc, balance, add_assoc]

/-! ## One subscriber for each id -/

/-- No two accepted subscribers of one id run. -/
theorem Linked.active_distinct (linked : deployment.Linked) :
    KeyedList.Distinct Connection.id deployment.active := by
  have gone : (deployment.closed.filter fun connection =>
      connection.accepted = true ∧ connection.Running) = [] := by
    refine List.filter_eq_nil_iff.mpr fun connection member => ?_
    simp [linked.agrees.ended connection member]
  have nodup := List.Nodup.of_map _ linked.agrees.distinct
  rw [KeyedList.Distinct, active, List.filter_append, gone, List.append_nil]
  refine (nodup.filter _).map_on fun connection member connection' member' same => ?_
  obtain ⟨isOpen, holds⟩ := List.mem_filter.mp member
  obtain ⟨isOpen', holds'⟩ := List.mem_filter.mp member'
  -- their sockets belong to one client, which is on one socket
  have consistent := linked.clean.consistent
  obtain ⟨ptr, online, owner⟩ := (Session.ownerOf_eq_some_iff consistent).mp
    ((linked.agrees.owner _ _).mpr ⟨connection, isOpen, rfl, (of_decide_eq_true holds).1, rfl⟩)
  obtain ⟨ptr', online', owner'⟩ := (Session.ownerOf_eq_some_iff consistent).mp
    ((linked.agrees.owner _ _).mpr ⟨connection', isOpen', rfl, (of_decide_eq_true holds').1, rfl⟩)
  have one := List.inj_on_of_nodup_map consistent.onlineIdsDistinct online online'
    (owner.trans (same.trans owner'.symm))
  exact List.inj_on_of_nodup_map linked.agrees.distinct isOpen isOpen' (congrArg Prod.fst one)

end Deployment

/-- What holds of the system after a run: every line a client is eligible for is written to
it or pending, once; what was written to an accepted subscriber is printed or under way, in
order, unless a chunk was taken for the refusal; the server reads nothing a refused subscriber
types; and at most one accepted subscriber runs under an id. -/
structure EndToEnd (floatText : FloatText) (deployment : Deployment)
    (trace : List (Transition Deployment Deployment.Event Transmission)) : Prop where
  conserved : ∀ id, deployment.linesTo id +
      (deployment.server.session.pendingOf id : Multiset CString) =
    (trace.map (Deployment.eligibleLine floatText id)).sum
  printed : ∀ connection ∈ deployment.connections ++ deployment.closed,
    connection.accepted = true → .overread ∉ connection.outputs →
      Subscriber.printedBy connection.outputs ++ connection.swallowed ++
        connection.toClient.inFlight = connection.toClient.messages.flatten
  unheard : ∀ connection ∈ deployment.connections ++ deployment.closed,
    connection.accepted = false → connection.toServer.delivered = []
  alone : KeyedList.Distinct Connection.id deployment.active

/-- A sign adds no NUL. -/
theorem zero_not_mem_signed (negative : Bool) {text : CString} (whole : 0 ∉ text) :
    0 ∉ signed negative text := by
  rw [signed]
  split
  · rw [List.mem_cons, not_or]
    exact ⟨by decide, whole⟩
  · exact whole

/-- The texts of doubles are strings. -/
theorem doubleText_whole (power : PowerOfTen) : (doubleText power).Whole := by
  intro negative num exponent
  cases divided : quotient num (power.pow (signedChar exponent)) with
  | some x =>
      rw [doubleText_of_quotient negative divided]
      refine zero_not_mem_signed negative fun member => ?_
      rcases FixedPoint.mem_text member with isDigit | dot
      · exact absurd isDigit (by decide)
      · exact absurd dot (by decide)
  | none =>
      rw [doubleText, divided]
      exact zero_not_mem_signed negative (by decide)

/-- From the datagrams to the terminals, with texts of any length. -/
theorem endToEnd_of_run (power : PowerOfTen) {start final : Deployment}
    {trace : List (Transition Deployment Deployment.Event Transmission)}
    (initial : start.Initial)
    (run : (deploymentMachine (doubleText power)).Run start trace final) :
    EndToEnd (doubleText power) final trace := by
  have whole := doubleText_whole power
  have linked := Deployment.linked_of_run whole initial run
  constructor
  case conserved =>
    intro id
    have unknown : start.server.session.getClient id = none := by
      simp [Session.getClient, initial.session.nobodyKnown, KeyedList.find]
    have nothing : start.linesTo id +
        (start.server.session.pendingOf id : Multiset CString) = 0 := by
      rw [Session.pendingOf_of_unknown unknown, Deployment.linesTo, initial.nobody,
        initial.nobodyLeft]
      rfl
    have balance := @Machine.Run.balance _ _ _ (deploymentMachine (doubleText power))
      (Multiset CString) _ Deployment.Linked
      (fun deployment => deployment.linesTo id +
        (deployment.server.session.pendingOf id : Multiset CString))
      (Deployment.eligibleLine (doubleText power) id) (fun _ => 0) start final trace
      (fun _ genuine linked => linked.step whole genuine.admitted genuine.stepped)
      (fun transition genuine linked =>
        (zero_add _).trans (Deployment.balanced id transition genuine linked)) run initial.linked
    rwa [List.sum_map_zero, nothing, zero_add, zero_add] at balance
  case printed =>
    intro connection member accepted inBounds
    rw [(linked.agrees.sound connection member).printed accepted inBounds,
      connection.toClient.conserved]
  case unheard => exact fun connection member => (linked.agrees.sound connection member).unheard
  case alone => exact linked.active_distinct

/-- The system with arrays of the sizes they have. -/
abbrev memoryDeployment (floatText : FloatText) :
    Machine Deployment (Disturbed Deployment Deployment.Event) Transmission :=
  (deploymentMachine floatText).undefinedUnless (Deployment.Fits floatText)

def sampleDeployment : Deployment := ⟨sampleServer, [], []⟩

theorem sampleDeployment_initial : sampleDeployment.Initial :=
  ⟨sampleServer_initial, fun _ _ => ⟨rfl, rfl⟩, rfl, rfl⟩

/-- A text on the topic `t`. -/
def sampleText (text : CString) : Deployment.Event :=
  .datagram sampleSender (116 :: List.replicate 49 0 ++ 3 :: text ++ [0]) 0

/-- The client `A` subscribes, receives part of a line and leaves, which the server notices
one line later; it comes back for what was stored. -/
def sampleScenario : List (Disturbed Deployment Deployment.Event) :=
  [.connects 5 [65] fun _ => 0, .subscriberTypes 5 (ascii "subscribe t 1\n"), .serverReads 5 14,
    sampleText (ascii "one"), .subscriberReads 5 7, .subscriberTypes 5 (ascii "exit\n"),
    sampleText (ascii "two"), .serverCloses 5, sampleText (ascii "three"),
    .connects 6 [65] fun _ => 0, .subscriberReads 6 4].map fun event => ⟨event, sampleDeployment⟩

theorem sampleScenario_run :
    ((memoryDeployment (doubleText .nearest)).exec sampleDeployment sampleScenario).isSome := by
  decide +kernel

end CommunicationProtocols.Server
