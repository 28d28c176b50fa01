import CommunicationProtocols.Library.Execution
import CommunicationProtocols.Library.KeyedList
import Mathlib.Data.Finset.Erase
import Mathlib.Data.Finset.Insert
import Mathlib.Data.List.Sort

/-!
# Sessions, subscriptions and stored messages

The bookkeeping of the server: the map from sockets to online clients, the list
of all clients and their records. The texts the server passes on are opaque
here, so the type of texts is a parameter. A client record that has just been
allocated has whatever its memory held in the fields that are not written.
-/

namespace CommunicationProtocols.Server

open Library

/-- A string of the source, without its terminating NUL. -/
abbrev CString := List UInt8

/-- A file descriptor. -/
abbrev Fd := Nat

/-- The address of a client record. -/
abbrev ClientPtr := Nat

/-- `topic_list_in_client`. The source has `char[51]` for the name. -/
structure Topic where
  name : CString
  sf : Bool
deriving DecidableEq

/-- `client`. -/
structure Client (Text : Type*) where
  id : CString
  online : Bool
  topics : List Topic
  pendingMessages : List Text

variable {Text : Type*}

/-! ## Client records -/

/-- `add_string_to_list`. -/
def addStringToList (value : Text) (list : List Text) : List Text := value :: list

/-- `add_topic`. -/
def addTopic (name : CString) (sf : Bool) (topics : List Topic) : List Topic :=
  KeyedList.put Topic.name ⟨name, sf⟩ topics

/-- `remove_topic`. -/
def removeTopic (name : CString) (topics : List Topic) : List Topic :=
  KeyedList.remove Topic.name name topics

/-- `check_sf_active`. -/
def checkSfActive (subscriber : Client Text) (name : CString) : Bool :=
  match KeyedList.find Topic.name name subscriber.topics with
  | some topic => topic.sf
  | none => false

/-- `check_subscription`. -/
def checkSubscription (subscriber : Client Text) (name : CString) : Bool :=
  (KeyedList.find Topic.name name subscriber.topics).isSome

/-! ## State -/

/-- The variables of `main` that outlive an event, the client records in memory,
and the descriptors the process has open. -/
structure Session (Text : Type*) where
  clients : ClientPtr → Client Text
  allocated : ClientPtr
  onlineClients : List (Fd × ClientPtr)
  allClients : List ClientPtr
  activeFds : Finset Fd
  openFds : Finset Fd
  fdmax : Fd
  tcpSock : Fd
  udpSock : Fd

/-- What the server writes to a socket. -/
inductive Output (Text : Type*) where
  | send (fd : Fd) (text : Text)
  | refuse (fd : Fd)
deriving DecidableEq

namespace Session

/-- Change the record behind a pointer. -/
def modify (session : Session Text) (ptr : ClientPtr) (change : Client Text → Client Text) :
    Session Text :=
  { session with
    clients := Function.update session.clients ptr (change (session.clients ptr)) }

/-- `std::map::insert`, which leaves the value of a known key alone. -/
def insertSocket (socket : Fd) (ptr : ClientPtr) (clients : List (Fd × ClientPtr)) :
    List (Fd × ClientPtr) :=
  match KeyedList.find Prod.fst socket clients with
  | some _ => clients
  | none => clients.orderedInsert (fun left right => left.1 ≤ right.1) (socket, ptr)

/-- `check_unique_id`. -/
def checkUniqueId (session : Session Text) (id : CString) : Bool :=
  session.onlineClients.all fun itr => decide ((session.clients itr.2).id ≠ id)

/-- `get_client`. -/
def getClient (session : Session Text) (id : CString) : Option ClientPtr :=
  KeyedList.find (fun ptr => (session.clients ptr).id) id session.allClients

/-- `add_client_to_clients`. -/
def addClientToClients (session : Session Text) (id : CString) (socket : Fd) : Session Text :=
  match session.getClient id with
  | some subscriber =>
      { session.modify subscriber fun client => { client with online := true } with
        onlineClients := insertSocket socket subscriber session.onlineClients }
  | none =>
      let newClient := session.allocated
      { session.modify newClient fun client => { client with id := id, online := true } with
        allocated := session.allocated + 1
        onlineClients := insertSocket socket newClient session.onlineClients
        allClients := newClient :: session.allClients }

/-! ## Events -/

/-- A client with a free id is entered and gets the texts that are pending for it. -/
def acceptClient (session : Session Text) (newsockfd : Fd) (id : CString) :
    Option (Session Text × List (Output Text)) :=
  let session := session.addClientToClients id newsockfd
  match session.getClient id with
  | none => none
  | some newClient =>
      some (session.modify newClient fun client => { client with pendingMessages := [] },
        (session.clients newClient).pendingMessages.map (Output.send newsockfd))

/-- A client connects on the socket `accept` returned and sends its id. The
socket of a refused client stays open. -/
def connect (session : Session Text) (newsockfd : Fd) (id : CString) :
    Option (Session Text × List (Output Text)) :=
  let session := { session with openFds := insert newsockfd session.openFds }
  if session.checkUniqueId id then
    let session := { session with
      activeFds := insert newsockfd session.activeFds
      fdmax := if newsockfd > session.fdmax then newsockfd else session.fdmax }
    session.acceptClient newsockfd id
  else
    some (session, [.refuse newsockfd])

/-- A socket reports the end of its connection. -/
def disconnect (session : Session Text) (fd : Fd) :
    Option (Session Text × List (Output Text)) :=
  match KeyedList.find Prod.fst fd session.onlineClients with
  | none => none
  | some itr =>
      some ({ session.modify itr.2 fun client => { client with online := false } with
        onlineClients := KeyedList.remove Prod.fst fd session.onlineClients
        activeFds := session.activeFds.erase fd
        openFds := session.openFds.erase fd }, [])

/-- The client on a socket changes its topics. -/
def changeTopics (session : Session Text) (fd : Fd) (change : List Topic → List Topic) :
    Option (Session Text × List (Output Text)) :=
  match KeyedList.find Prod.fst fd session.onlineClients with
  | none => none
  | some itr =>
      some (session.modify itr.2 fun client => { client with topics := change client.topics }, [])

/-- A subscribe command. -/
def subscribe (session : Session Text) (fd : Fd) (topic : CString) (sf : Bool) :
    Option (Session Text × List (Output Text)) :=
  session.changeTopics fd (addTopic topic sf)

/-- An unsubscribe command. -/
def unsubscribe (session : Session Text) (fd : Fd) (topic : CString) :
    Option (Session Text × List (Output Text)) :=
  session.changeTopics fd (removeTopic topic)

/-- The loop that sends a text to the online subscribers of its topic. -/
def sendToOnline (session : Session Text) (topic : CString) (text : Text) : List (Output Text) :=
  (session.onlineClients.filter fun itr =>
    checkSubscription (session.clients itr.2) topic).map fun itr => .send itr.1 text

/-- One round of the loop that stores a text for an offline client. -/
def storeFor (topic : CString) (text : Text) (session : Session Text) (ptr : ClientPtr) :
    Session Text :=
  if (session.clients ptr).online = false then
    if checkSfActive (session.clients ptr) topic then
      session.modify ptr fun client =>
        { client with pendingMessages := addStringToList text client.pendingMessages }
    else session
  else session

/-- A valid datagram: its text is sent to the online subscribers of its topic
and stored for the offline ones that asked for it. -/
def publish (session : Session Text) (topic : CString) (text : Text) :
    Session Text × List (Output Text) :=
  (session.allClients.foldl (storeFor topic text) session, session.sendToOnline topic text)

/-- `select` reports a descriptor that is none of the server's own. -/
def Reports (session : Session Text) (fd : Fd) : Prop :=
  fd ∈ session.activeFds ∧ fd ≠ 0 ∧ fd ≠ session.tcpSock ∧ fd ≠ session.udpSock

instance (session : Session Text) (fd : Fd) : Decidable (session.Reports fd) :=
  inferInstanceAs (Decidable (_ ∧ _))

end Session

/-- An id as a subscriber sends it: at most ten characters. -/
def ValidId (id : CString) : Prop := id.length ≤ 10 ∧ 0 ∉ id

instance (id : CString) : Decidable (ValidId id) := inferInstanceAs (Decidable (_ ∧ _))

/-- An event of the server. -/
inductive Event (Text : Type*) where
  | connect (fd : Fd) (id : CString)
  | disconnect (fd : Fd)
  | subscribe (fd : Fd) (topic : CString) (sf : Bool)
  | unsubscribe (fd : Fd) (topic : CString)
  | publish (topic : CString) (text : Text)

/-- The events the environment can offer: `accept` returns a descriptor that is
not open, and commands and disconnections come from watched sockets. -/
def Event.Admissible (session : Session Text) : Event Text → Prop
  | .connect fd id => fd ∉ session.openFds ∧ ValidId id
  | .disconnect fd => session.Reports fd
  | .subscribe fd _ _ => session.Reports fd
  | .unsubscribe fd _ => session.Reports fd
  | .publish _ _ => True

instance (session : Session Text) : (event : Event Text) → Decidable (event.Admissible session)
  | .connect _ _ => inferInstanceAs (Decidable (_ ∧ _))
  | .disconnect fd => inferInstanceAs (Decidable (session.Reports fd))
  | .subscribe fd _ _ => inferInstanceAs (Decidable (session.Reports fd))
  | .unsubscribe fd _ => inferInstanceAs (Decidable (session.Reports fd))
  | .publish _ _ => inferInstanceAs (Decidable True)

/-- The server's bookkeeping as a machine; a search in the map that fails leaves
the step undefined. -/
def sessionMachine (Text : Type*) : Machine (Session Text) (Event Text) (Output Text) where
  Admits session event := event.Admissible session
  step session event := match event with
    | .connect fd id => session.connect fd id
    | .disconnect fd => session.disconnect fd
    | .subscribe fd topic sf => session.subscribe fd topic sf
    | .unsubscribe fd topic => session.unsubscribe fd topic
    | .publish topic text => some (session.publish topic text)

instance (session : Session Text) (event : Event Text) :
    Decidable ((sessionMachine Text).Admits session event) :=
  inferInstanceAs (Decidable (event.Admissible session))

/-- `main` up to the loop: nobody is known, and stdin and the two server sockets
are watched. -/
structure Session.Initial (session : Session Text) : Prop where
  nobodyOnline : session.onlineClients = []
  nobodyKnown : session.allClients = []
  watched : session.activeFds = {0, session.tcpSock, session.udpSock}
  opened : session.activeFds ⊆ session.openFds
  fdmax : session.fdmax = session.tcpSock

/-- The topic and pending lists of records not yet allocated are empty. -/
def Session.FreshMemory (session : Session Text) : Prop :=
  ∀ ptr, session.allocated ≤ ptr →
    (session.clients ptr).topics = [] ∧ (session.clients ptr).pendingMessages = []

end CommunicationProtocols.Server
