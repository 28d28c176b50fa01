import CommunicationProtocols.Server.Session

/-!
# Texts are opaque

The server moves texts around and never looks at them: replacing every text
commutes with every step. A run can therefore be annotated, text by text, with
anything an observer wants to know about the texts.
-/

namespace CommunicationProtocols.Server

open Library

variable {Text Text' : Type*}

/-- Replace the texts of a record. -/
def Client.map (f : Text → Text') (client : Client Text) : Client Text' :=
  ⟨client.id, client.online, client.topics, client.pendingMessages.map f⟩

/-- Replace the texts of a session. -/
def Session.map (f : Text → Text') (session : Session Text) : Session Text' where
  clients ptr := (session.clients ptr).map f
  allocated := session.allocated
  onlineClients := session.onlineClients
  allClients := session.allClients
  activeFds := session.activeFds
  openFds := session.openFds
  fdmax := session.fdmax
  tcpSock := session.tcpSock
  udpSock := session.udpSock

/-- Replace the text of an output. -/
def Output.map (f : Text → Text') : Output Text → Output Text'
  | .send fd text => .send fd (f text)
  | .refuse fd => .refuse fd

/-- Replace the text of an event. -/
def Event.map (f : Text → Text') : Event Text → Event Text'
  | .connect fd id => .connect fd id
  | .disconnect fd => .disconnect fd
  | .subscribe fd topic sf => .subscribe fd topic sf
  | .unsubscribe fd topic => .unsubscribe fd topic
  | .publish topic text => .publish topic (f text)

/-- Replace the texts of a transition. -/
def mapTransition (f : Text → Text')
    (transition : Transition (Session Text) (Event Text) (Output Text)) :
    Transition (Session Text') (Event Text') (Output Text') :=
  ⟨transition.before.map f, transition.event.map f, transition.outputs.map (Output.map f),
    transition.after.map f⟩

namespace Session

/-- Changing the texts of all records goes past the update of one. -/
theorem map_update (f : Text → Text') (clients : ClientPtr → Client Text) (ptr : ClientPtr)
    (client : Client Text) :
    (fun other => (Function.update clients ptr client other).map f) =
      Function.update (fun other => (clients other).map f) ptr (client.map f) := by
  ext other : 1
  exact Function.apply_update (fun _ => Client.map f) clients ptr client other

/-- Changing the texts does not matter to the search for a client. -/
theorem getClient_map (f : Text → Text') (session : Session Text) (id : CString) :
    (session.map f).getClient id = session.getClient id := rfl

/-- Changing the texts does not matter to the test of an id. -/
theorem checkUniqueId_map (f : Text → Text') (session : Session Text) (id : CString) :
    (session.map f).checkUniqueId id = session.checkUniqueId id := rfl

/-- Changing the texts goes past the registration of a client. -/
theorem addClientToClients_map (f : Text → Text') (session : Session Text) (id : CString)
    (socket : Fd) :
    (session.map f).addClientToClients id socket =
      (session.addClientToClients id socket).map f := by
  unfold addClientToClients
  rw [getClient_map]
  cases session.getClient id with
  | some subscriber =>
      simp only [map, modify, map_update]
      rfl
  | none =>
      simp only [map, modify, map_update]
      rfl

/-- Changing the texts goes past accepting a client. -/
theorem acceptClient_map (f : Text → Text') (session : Session Text) (newsockfd : Fd)
    (id : CString) :
    (session.map f).acceptClient newsockfd id =
      (session.acceptClient newsockfd id).map fun result =>
        (result.1.map f, result.2.map (Output.map f)) := by
  unfold acceptClient
  dsimp only
  rw [addClientToClients_map, getClient_map]
  cases (session.addClientToClients id newsockfd).getClient id with
  | none => rfl
  | some newClient =>
      simp only [map, modify, map_update, Option.map_some, List.map_map]
      simp [Client.map, Output.map]

/-- Changing the texts goes past a connection. -/
theorem connect_map (f : Text → Text') (session : Session Text) (newsockfd : Fd)
    (id : CString) :
    (session.map f).connect newsockfd id =
      (session.connect newsockfd id).map fun result =>
        (result.1.map f, result.2.map (Output.map f)) := by
  let opened : Session Text := { session with openFds := insert newsockfd session.openFds }
  let watched : Session Text := { opened with
    activeFds := insert newsockfd session.activeFds
    fdmax := if newsockfd > session.fdmax then newsockfd else session.fdmax }
  change (if session.checkUniqueId id = true then (watched.map f).acceptClient newsockfd id
      else some (opened.map f, [.refuse newsockfd])) =
    Option.map (fun result => (result.1.map f, result.2.map (Output.map f)))
      (if session.checkUniqueId id = true then watched.acceptClient newsockfd id
        else some (opened, [.refuse newsockfd]))
  split
  · exact acceptClient_map f watched newsockfd id
  · rfl

/-- Changing the texts goes past the end of a connection. -/
theorem disconnect_map (f : Text → Text') (session : Session Text) (fd : Fd) :
    (session.map f).disconnect fd =
      (session.disconnect fd).map fun result =>
        (result.1.map f, result.2.map (Output.map f)) := by
  unfold disconnect
  have searched : (session.map f).onlineClients = session.onlineClients := rfl
  rw [searched]
  cases KeyedList.find Prod.fst fd session.onlineClients with
  | none => rfl
  | some itr =>
      simp only [map, modify, map_update, Option.map_some, List.map_nil]
      rfl

/-- Changing the texts goes past a change of topics. -/
theorem changeTopics_map (f : Text → Text') (session : Session Text) (fd : Fd)
    (change : List Topic → List Topic) :
    (session.map f).changeTopics fd change =
      (session.changeTopics fd change).map fun result =>
        (result.1.map f, result.2.map (Output.map f)) := by
  unfold changeTopics
  have searched : (session.map f).onlineClients = session.onlineClients := rfl
  rw [searched]
  cases KeyedList.find Prod.fst fd session.onlineClients with
  | none => rfl
  | some itr =>
      simp only [map, modify, map_update, Option.map_some, List.map_nil]
      rfl

/-- Changing the texts goes past storing one. -/
theorem storeFor_map (f : Text → Text') (topic : CString) (text : Text)
    (session : Session Text) (ptr : ClientPtr) :
    storeFor topic (f text) (session.map f) ptr = (storeFor topic text session ptr).map f := by
  have flag : ((session.map f).clients ptr).online = (session.clients ptr).online := rfl
  have wanted : checkSfActive ((session.map f).clients ptr) topic =
      checkSfActive (session.clients ptr) topic := rfl
  unfold storeFor
  rw [flag, wanted]
  split
  · split
    · simp only [map, modify, map_update]
      rfl
    · rfl
  · rfl

/-- Changing the texts goes past publishing one. -/
theorem publish_map (f : Text → Text') (session : Session Text) (topic : CString)
    (text : Text) :
    (session.map f).publish topic (f text) =
      ((session.publish topic text).1.map f,
        (session.publish topic text).2.map (Output.map f)) := by
  have stored : session.allClients.foldl (storeFor topic (f text)) (session.map f) =
      (session.allClients.foldl (storeFor topic text) session).map f := by
    generalize session.allClients = ptrs
    induction ptrs generalizing session with
    | nil => rfl
    | cons ptr rest ih => rw [List.foldl_cons, List.foldl_cons, storeFor_map, ih]
  have sent : (session.map f).sendToOnline topic (f text) =
      (session.sendToOnline topic text).map (Output.map f) := by
    unfold sendToOnline
    rw [List.map_map]
    rfl
  exact Prod.ext stored sent

/-- Replacing the texts commutes with every step. -/
theorem step_map (f : Text → Text') (session : Session Text) (event : Event Text) :
    (sessionMachine Text').step (session.map f) (event.map f) =
      ((sessionMachine Text).step session event).map fun result =>
        (result.1.map f, result.2.map (Output.map f)) := by
  cases event with
  | connect fd id => exact connect_map f session fd id
  | disconnect fd => exact disconnect_map f session fd
  | subscribe fd topic sf => exact changeTopics_map f session fd _
  | unsubscribe fd topic => exact changeTopics_map f session fd _
  | publish topic text => exact congrArg some (publish_map f session topic text)

/-- Changing the texts does not matter to what may happen. -/
theorem admissible_map (f : Text → Text') (session : Session Text) (event : Event Text) :
    (event.map f).Admissible (session.map f) ↔ event.Admissible session := by
  cases event <;> rfl

/-- A step of the replaced texts comes from a step of the texts themselves. -/
theorem genuine_of_map (f : Text → Text') {session : Session Text} {event : Event Text}
    {next : Session Text'} {outputs : List (Output Text')}
    (admitted : (sessionMachine Text').Admits (session.map f) (event.map f))
    (stepped : (sessionMachine Text').step (session.map f) (event.map f) =
      some (next, outputs)) :
    ∃ sent after, (sessionMachine Text).Genuine ⟨session, event, sent, after⟩ ∧
      mapTransition f ⟨session, event, sent, after⟩ =
        ⟨session.map f, event.map f, outputs, next⟩ := by
  rw [step_map] at stepped
  obtain ⟨⟨after, sent⟩, taken, same⟩ := Option.map_eq_some_iff.mp stepped
  cases same
  exact ⟨sent, after, ⟨(admissible_map f session event).mp admitted, taken⟩, rfl⟩

end Session

end CommunicationProtocols.Server
