import CommunicationProtocols.Server.Session
import Mathlib.Data.List.Perm.Basic

/-!
# The session invariant

The same fact is held in four places: the map from sockets to clients, the
online flag of a record, the list of all clients and the set of watched
descriptors. They agree wherever a run of the bookkeeping ends, and every search
the bookkeeping relies on succeeds there.
-/

namespace CommunicationProtocols.Server

open Library

variable {Text : Type*}

namespace Session

/-- The four places agree. -/
structure Consistent (session : Session Text) : Prop where
  idsDistinct : KeyedList.Distinct (fun ptr => (session.clients ptr).id) session.allClients
  onlineRegistered : ∀ itr ∈ session.onlineClients, itr.2 ∈ session.allClients
  onlineOnce : KeyedList.Distinct Prod.snd session.onlineClients
  socketsDistinct : KeyedList.Distinct Prod.fst session.onlineClients
  flag : ∀ ptr ∈ session.allClients,
    (session.clients ptr).online = true ↔ ∃ fd, (fd, ptr) ∈ session.onlineClients
  watched : ∀ fd, session.Reports fd ↔ ∃ ptr, (fd, ptr) ∈ session.onlineClients
  activeOpen : session.activeFds ⊆ session.openFds
  serverActive : 0 ∈ session.activeFds ∧ session.tcpSock ∈ session.activeFds ∧
    session.udpSock ∈ session.activeFds
  belowAllocated : ∀ ptr ∈ session.allClients, ptr < session.allocated

/-- A start is consistent. -/
theorem Initial.consistent {session : Session Text} (initial : session.Initial) :
    session.Consistent where
  idsDistinct := by simp [KeyedList.Distinct, initial.nobodyKnown]
  onlineRegistered := by simp [initial.nobodyOnline]
  onlineOnce := by simp [KeyedList.Distinct, initial.nobodyOnline]
  socketsDistinct := by simp [KeyedList.Distinct, initial.nobodyOnline]
  flag := by simp [initial.nobodyKnown]
  watched fd := by
    simp only [Reports, initial.watched, initial.nobodyOnline]
    simp
    tauto
  activeOpen := initial.opened
  serverActive := by simp [initial.watched]
  belowAllocated := by simp [initial.nobodyKnown]

/-! ## Changes of one record -/

@[simp] theorem modify_clients_same (session : Session Text) (ptr : ClientPtr)
    (change : Client Text → Client Text) :
    (session.modify ptr change).clients ptr = change (session.clients ptr) := by
  simp [modify]

/-- Changing one record leaves the others. -/
theorem modify_clients_of_ne (session : Session Text) {ptr other : ClientPtr}
    (change : Client Text → Client Text) (differs : other ≠ ptr) :
    (session.modify ptr change).clients other = session.clients other := by
  simp [modify, differs]

/-- A field the change leaves alone is the same in every record. -/
theorem modify_field {Value : Type*} (field : Client Text → Value) (session : Session Text)
    (ptr : ClientPtr) {change : Client Text → Client Text}
    (kept : field (change (session.clients ptr)) = field (session.clients ptr))
    (other : ClientPtr) :
    field ((session.modify ptr change).clients other) = field (session.clients other) := by
  by_cases same : other = ptr
  · rw [same, modify_clients_same, kept]
  · rw [modify_clients_of_ne session change same]

/-- Changing a record but not its id keeps the ids distinct. -/
theorem Consistent.ids_modify {session : Session Text} (consistent : session.Consistent)
    (ptr : ClientPtr) (change : Client Text → Client Text)
    (keepsId : (change (session.clients ptr)).id = (session.clients ptr).id) :
    KeyedList.Distinct (fun other => ((session.modify ptr change).clients other).id)
      session.allClients := by
  simp only [modify_field Client.id session ptr keepsId]
  exact consistent.idsDistinct

/-- Changes that leave ids and online flags alone keep the places in agreement. -/
theorem Consistent.withClients {session : Session Text} (consistent : session.Consistent)
    {clients : ClientPtr → Client Text}
    (ids : ∀ ptr, (clients ptr).id = (session.clients ptr).id)
    (flags : ∀ ptr, (clients ptr).online = (session.clients ptr).online) :
    ({ session with clients := clients } : Session Text).Consistent where
  idsDistinct := by
    simp only [ids]
    exact consistent.idsDistinct
  onlineRegistered := consistent.onlineRegistered
  onlineOnce := consistent.onlineOnce
  socketsDistinct := consistent.socketsDistinct
  flag ptr member := by
    simp only [flags]
    exact consistent.flag ptr member
  watched := consistent.watched
  activeOpen := consistent.activeOpen
  serverActive := consistent.serverActive
  belowAllocated := consistent.belowAllocated

/-! ## Lookups -/

/-- The client that is found is known and has the id. -/
theorem getClient_eq_some {session : Session Text} {id : CString} {ptr : ClientPtr}
    (found : session.getClient id = some ptr) :
    ptr ∈ session.allClients ∧ (session.clients ptr).id = id :=
  KeyedList.find_eq_some found

/-- No client is found exactly if none that is known has the id. -/
theorem getClient_eq_none_iff {session : Session Text} {id : CString} :
    session.getClient id = none ↔ ∀ ptr ∈ session.allClients, (session.clients ptr).id ≠ id :=
  KeyedList.find_eq_none_iff

/-- The search for a registered client's id finds the client. -/
theorem Consistent.getClient_of_mem {session : Session Text} (consistent : session.Consistent)
    {ptr : ClientPtr} (member : ptr ∈ session.allClients) :
    session.getClient (session.clients ptr).id = some ptr :=
  KeyedList.find_of_mem consistent.idsDistinct member

/-- `online_clients.find` succeeds for every descriptor the client branch handles. -/
theorem Consistent.find_of_reports {session : Session Text} (consistent : session.Consistent)
    {fd : Fd} (reported : session.Reports fd) :
    ∃ ptr, KeyedList.find Prod.fst fd session.onlineClients = some (fd, ptr) := by
  obtain ⟨ptr, member⟩ := (consistent.watched fd).mp reported
  exact ⟨ptr, KeyedList.find_of_mem consistent.socketsDistinct member⟩

/-- An id is free exactly if nobody online has it. -/
theorem checkUniqueId_iff {session : Session Text} {id : CString} :
    session.checkUniqueId id = true ↔
      ∀ itr ∈ session.onlineClients, (session.clients itr.2).id ≠ id := by
  simp [checkUniqueId]

/-- The id of a client that is not online passes the test, and only such an id. -/
theorem Consistent.checkUniqueId_iff_offline {session : Session Text}
    (consistent : session.Consistent) {id : CString} :
    session.checkUniqueId id = true ↔
      ∀ ptr ∈ session.allClients, (session.clients ptr).id = id →
        (session.clients ptr).online = false := by
  rw [checkUniqueId_iff]
  constructor
  · intro unique ptr member same
    rw [← Bool.not_eq_true, consistent.flag ptr member]
    rintro ⟨fd, online⟩
    exact unique (fd, ptr) online same
  · intro offline itr online same
    have registered := consistent.onlineRegistered itr online
    have flagged := (consistent.flag itr.2 registered).mpr ⟨itr.1, online⟩
    rw [offline itr.2 registered same] at flagged
    cases flagged

/-! ## A connection in two moves -/

/-- Enter a new client into the list of all clients; its record is not online yet. -/
def register (session : Session Text) (id : CString) : Session Text :=
  { session.modify session.allocated fun client => { client with id := id, online := false } with
    allocated := session.allocated + 1
    allClients := session.allocated :: session.allClients }

/-- The client of an id, entered if it is not known, and the session that knows it. -/
def enroll (session : Session Text) (id : CString) : Session Text × ClientPtr :=
  match session.getClient id with
  | some ptr => (session, ptr)
  | none => (session.register id, session.allocated)

/-- Bring a registered client online on a socket and empty its pending list. -/
def attach (session : Session Text) (fd : Fd) (ptr : ClientPtr) : Session Text :=
  { session.modify ptr fun client => { client with online := true, pendingMessages := [] } with
    openFds := insert fd session.openFds
    activeFds := insert fd session.activeFds
    fdmax := if fd > session.fdmax then fd else session.fdmax
    onlineClients := insertSocket fd ptr session.onlineClients }

@[simp] theorem attach_clients_same (session : Session Text) (fd : Fd) (ptr : ClientPtr) :
    (session.attach fd ptr).clients ptr =
      { session.clients ptr with online := true, pendingMessages := [] } := by
  simp [attach]

/-- Attaching changes one record. -/
theorem attach_clients_of_ne (session : Session Text) (fd : Fd) {ptr other : ClientPtr}
    (differs : other ≠ ptr) : (session.attach fd ptr).clients other = session.clients other := by
  simp [attach, modify_clients_of_ne, differs]

/-- A client that is enrolled is known. -/
theorem enroll_ptr_mem (session : Session Text) (id : CString) :
    (session.enroll id).2 ∈ (session.enroll id).1.allClients := by
  unfold enroll
  cases found : session.getClient id with
  | some ptr => exact (getClient_eq_some found).1
  | none => exact List.mem_cons_self

/-- A client that is enrolled has the id it came with. -/
theorem enroll_ptr_id (session : Session Text) (id : CString) :
    ((session.enroll id).1.clients (session.enroll id).2).id = id := by
  unfold enroll
  cases found : session.getClient id with
  | some ptr => exact (getClient_eq_some found).2
  | none => simp [register]

/-- The search for a client depends on ids and on who is known. -/
theorem getClient_congr {session session' : Session Text} {id : CString}
    (ids : ∀ ptr, (session'.clients ptr).id = (session.clients ptr).id)
    (all : session'.allClients = session.allClients) :
    session'.getClient id = session.getClient id := by
  simp only [getClient, ids, all]

/-- `add_client_to_clients` enters the client and marks it online on the socket. -/
theorem addClientToClients_eq (session : Session Text) (id : CString) (socket : Fd) :
    session.addClientToClients id socket =
      { (session.enroll id).1.modify (session.enroll id).2 fun client =>
          { client with online := true } with
        onlineClients := insertSocket socket (session.enroll id).2 session.onlineClients } := by
  unfold addClientToClients enroll
  cases found : session.getClient id with
  | some ptr => rfl
  | none => simp [register, modify]

/-- `get_client` finds the client that `add_client_to_clients` has entered. -/
theorem getClient_addClientToClients (session : Session Text) (id : CString) (socket : Fd) :
    (session.addClientToClients id socket).getClient id = some (session.enroll id).2 := by
  rw [addClientToClients_eq]
  have kept : ∀ ptr, (((session.enroll id).1.modify (session.enroll id).2 fun client =>
      { client with online := true }).clients ptr).id = ((session.enroll id).1.clients ptr).id :=
    modify_field Client.id _ _ rfl
  refine (getClient_congr kept rfl).trans ?_
  unfold enroll
  cases found : session.getClient id with
  | some ptr => exact found
  | none => simp [register, getClient, KeyedList.find]

/-- An accepted connection brings the client of the id online and sends what is
pending for it. -/
theorem connect_unique {session : Session Text} {fd : Fd} {id : CString}
    (unique : session.checkUniqueId id = true) :
    session.connect fd id = some ((session.enroll id).1.attach fd (session.enroll id).2,
      ((session.enroll id).1.clients (session.enroll id).2).pendingMessages.map (.send fd)) := by
  have unique' : ({ session with openFds := insert fd session.openFds } :
      Session Text).checkUniqueId id = true := unique
  unfold connect
  dsimp only
  rw [if_pos unique', acceptClient, getClient_addClientToClients, addClientToClients_eq]
  have known : ({ session with
      openFds := insert fd session.openFds
      activeFds := insert fd session.activeFds
      fdmax := if fd > session.fdmax then fd else session.fdmax } : Session Text).getClient id =
        session.getClient id := rfl
  unfold enroll
  cases found : session.getClient id with
  | some ptr => simp [known, found, modify, attach]
  | none => simp [known, found, modify, attach, register]

/-- A connection with the id of an online client is refused. -/
theorem connect_refused {session : Session Text} {fd : Fd} {id : CString}
    (taken : session.checkUniqueId id = false) :
    session.connect fd id =
      some ({ session with openFds := insert fd session.openFds }, [.refuse fd]) := by
  have taken' : ¬ ({ session with openFds := insert fd session.openFds } :
      Session Text).checkUniqueId id = true := by
    rw [Bool.not_eq_true]
    exact taken
  unfold connect
  dsimp only
  rw [if_neg taken']

/-! ## Every event keeps the invariant -/

/-- A new socket is put into the map once. -/
theorem insertSocket_fresh {socket : Fd} {ptr : ClientPtr} {clients : List (Fd × ClientPtr)}
    (fresh : ∀ itr ∈ clients, itr.1 ≠ socket) :
    (insertSocket socket ptr clients).Perm ((socket, ptr) :: clients) := by
  unfold insertSocket
  rw [KeyedList.find_eq_none_iff.mpr fresh]
  exact List.perm_orderedInsert _ _ _

/-- Registering a client leaves the records of those that are known. -/
theorem register_clients_of_mem {session : Session Text} (consistent : session.Consistent)
    {id : CString} {ptr : ClientPtr} (member : ptr ∈ session.allClients) :
    (session.register id).clients ptr = session.clients ptr := by
  have other : ptr ≠ session.allocated := (consistent.belowAllocated ptr member).ne
  simp [Session.register, modify_clients_of_ne session _ other]

/-- Registering a new id keeps a session consistent. -/
theorem Consistent.register {session : Session Text} (consistent : session.Consistent)
    {id : CString} (unknown : session.getClient id = none) :
    (session.register id).Consistent where
  idsDistinct := by
    have others : session.allClients.map (fun ptr => ((session.register id).clients ptr).id) =
        session.allClients.map fun ptr => (session.clients ptr).id :=
      List.map_congr_left fun ptr member => by rw [register_clients_of_mem consistent member]
    have newId : ((session.register id).clients session.allocated).id = id := by
      simp [Session.register]
    refine KeyedList.distinct_cons_iff.mpr ⟨fun ptr member => ?_, ?_⟩
    · rw [register_clients_of_mem consistent member, newId]
      exact getClient_eq_none_iff.mp unknown ptr member
    · rw [KeyedList.Distinct, others]
      exact consistent.idsDistinct
  onlineRegistered itr member := List.mem_cons_of_mem _ (consistent.onlineRegistered itr member)
  onlineOnce := consistent.onlineOnce
  socketsDistinct := consistent.socketsDistinct
  flag ptr member := by
    rcases List.mem_cons.mp member with rfl | known
    · have offline : ((session.register id).clients session.allocated).online = false := by
        simp [Session.register]
      rw [offline]
      constructor
      · intro contradiction
        cases contradiction
      · rintro ⟨fd, online⟩
        have below := consistent.belowAllocated _ (consistent.onlineRegistered _ online)
        exact absurd below (lt_irrefl _)
    · rw [register_clients_of_mem consistent known]
      exact consistent.flag ptr known
  watched := consistent.watched
  activeOpen := consistent.activeOpen
  serverActive := consistent.serverActive
  belowAllocated ptr member := by
    rcases List.mem_cons.mp member with rfl | known
    · exact Nat.lt_succ_self _
    · exact Nat.lt_succ_of_lt (consistent.belowAllocated ptr known)

/-- Enrolling keeps a session consistent. -/
theorem Consistent.enroll {session : Session Text} (consistent : session.Consistent)
    (id : CString) : (session.enroll id).1.Consistent := by
  unfold Session.enroll
  cases found : session.getClient id with
  | some ptr => exact consistent
  | none => exact consistent.register found

/-- Where the id passed the test, the client it is admitted as is offline. -/
theorem Consistent.enroll_offline {session : Session Text} (consistent : session.Consistent)
    {id : CString} (unique : session.checkUniqueId id = true) :
    ((session.enroll id).1.clients (session.enroll id).2).online = false := by
  unfold Session.enroll
  cases found : session.getClient id with
  | some ptr =>
      obtain ⟨member, same⟩ := getClient_eq_some found
      exact consistent.checkUniqueId_iff_offline.mp unique ptr member same
  | none => simp [Session.register]

/-- Enrolling opens no descriptor. -/
theorem enroll_openFds (session : Session Text) (id : CString) :
    (session.enroll id).1.openFds = session.openFds := by
  unfold enroll
  cases session.getClient id <;> rfl

/-- A descriptor that is not open has no client. -/
theorem Consistent.unmapped {session : Session Text} (consistent : session.Consistent) {fd : Fd}
    (closed : fd ∉ session.openFds) : ∀ itr ∈ session.onlineClients, itr.1 ≠ fd := by
  rintro ⟨fd', ptr⟩ member rfl
  exact closed (consistent.activeOpen ((consistent.watched fd').mpr ⟨ptr, member⟩).1)

/-- Attaching a closed descriptor adds one client that is online. -/
theorem attach_onlineClients {session : Session Text} (consistent : session.Consistent) {fd : Fd}
    (closed : fd ∉ session.openFds) (ptr : ClientPtr) :
    (session.attach fd ptr).onlineClients.Perm ((fd, ptr) :: session.onlineClients) :=
  insertSocket_fresh (consistent.unmapped closed)

/-- After attaching one more is online. -/
theorem mem_attach {session : Session Text} (consistent : session.Consistent) {fd : Fd}
    (closed : fd ∉ session.openFds) (ptr : ClientPtr) (itr : Fd × ClientPtr) :
    itr ∈ (session.attach fd ptr).onlineClients ↔
      itr = (fd, ptr) ∨ itr ∈ session.onlineClients := by
  rw [← List.mem_cons]
  exact (attach_onlineClients consistent closed ptr).mem_iff

/-- Attaching a client that is offline keeps a session consistent. -/
theorem Consistent.attach {session : Session Text} (consistent : session.Consistent) {fd : Fd}
    {ptr : ClientPtr} (closed : fd ∉ session.openFds) (registered : ptr ∈ session.allClients)
    (offline : (session.clients ptr).online = false) : (session.attach fd ptr).Consistent := by
  have inactive : fd ∉ session.activeFds := fun active => closed (consistent.activeOpen active)
  have unmapped := consistent.unmapped closed
  have alone : ∀ itr ∈ session.onlineClients, itr.2 ≠ ptr := by
    rintro ⟨fd', ptr'⟩ member rfl
    have flagged := (consistent.flag ptr' registered).mpr ⟨fd', member⟩
    rw [offline] at flagged
    cases flagged
  have perm := attach_onlineClients consistent closed ptr
  have mem_iff := mem_attach consistent closed ptr
  obtain ⟨stdinActive, tcpActive, udpActive⟩ := consistent.serverActive
  have attachedIds : KeyedList.Distinct
      (fun other => ((session.attach fd ptr).clients other).id) session.allClients :=
    consistent.ids_modify ptr (fun client => { client with online := true, pendingMessages := [] })
      rfl
  exact {
    idsDistinct := attachedIds
    onlineRegistered := by
      intro itr member
      rcases (mem_iff itr).mp member with rfl | earlier
      · exact registered
      · exact consistent.onlineRegistered itr earlier
    onlineOnce := (KeyedList.distinct_cons_iff.mpr ⟨alone, consistent.onlineOnce⟩).perm perm
    socketsDistinct :=
      (KeyedList.distinct_cons_iff.mpr ⟨unmapped, consistent.socketsDistinct⟩).perm perm
    flag := by
      intro other member
      by_cases same : other = ptr
      · subst same
        have flagged : ((session.attach fd other).clients other).online = true := by simp
        exact ⟨fun _ => ⟨fd, (mem_iff _).mpr (.inl rfl)⟩, fun _ => flagged⟩
      · rw [attach_clients_of_ne session fd same, consistent.flag other member]
        constructor
        · rintro ⟨fd', online⟩
          exact ⟨fd', (mem_iff _).mpr (.inr online)⟩
        · rintro ⟨fd', online⟩
          rcases (mem_iff _).mp online with attached | earlier
          · cases attached
            exact absurd rfl same
          · exact ⟨fd', earlier⟩
    watched := by
      intro fd'
      have active_iff : fd' ∈ (session.attach fd ptr).activeFds ↔
          fd' = fd ∨ fd' ∈ session.activeFds := Finset.mem_insert
      by_cases same : fd' = fd
      · subst same
        refine ⟨fun _ => ⟨ptr, (mem_iff _).mpr (.inl rfl)⟩, fun _ => ⟨active_iff.mpr (.inl rfl), ?_⟩⟩
        exact ⟨fun stdin => inactive (stdin ▸ stdinActive), fun tcp => inactive (tcp ▸ tcpActive),
          fun udp => inactive (udp ▸ udpActive)⟩
      · have reports_iff : (session.attach fd ptr).Reports fd' ↔ session.Reports fd' := by
          simp only [Reports, active_iff, same, false_or]
          rfl
        rw [reports_iff, consistent.watched]
        simp [mem_iff, same]
    activeOpen := Finset.insert_subset_insert fd consistent.activeOpen
    serverActive := ⟨Finset.mem_insert_of_mem stdinActive, Finset.mem_insert_of_mem tcpActive,
      Finset.mem_insert_of_mem udpActive⟩
    belowAllocated := consistent.belowAllocated }

/-- The session after the client on a socket has gone. -/
def detach (session : Session Text) (fd : Fd) (ptr : ClientPtr) : Session Text :=
  { session.modify ptr fun client => { client with online := false } with
    onlineClients := KeyedList.remove Prod.fst fd session.onlineClients
    activeFds := session.activeFds.erase fd
    openFds := session.openFds.erase fd }

@[simp] theorem detach_clients_same (session : Session Text) (fd : Fd) (ptr : ClientPtr) :
    (session.detach fd ptr).clients ptr = { session.clients ptr with online := false } := by
  simp [detach]

/-- Detaching changes one record. -/
theorem detach_clients_of_ne (session : Session Text) (fd : Fd) {ptr other : ClientPtr}
    (differs : other ≠ ptr) : (session.detach fd ptr).clients other = session.clients other := by
  simp [detach, modify_clients_of_ne, differs]

/-- The end of a connection detaches the client on it. -/
theorem disconnect_eq {session : Session Text} {fd : Fd} {ptr : ClientPtr}
    (found : KeyedList.find Prod.fst fd session.onlineClients = some (fd, ptr)) :
    session.disconnect fd = some (session.detach fd ptr, []) := by
  simp [disconnect, found, detach]

/-- Detaching keeps a session consistent. -/
theorem Consistent.detach {session : Session Text} (consistent : session.Consistent) {fd : Fd}
    {ptr : ClientPtr} (reported : session.Reports fd)
    (online : (fd, ptr) ∈ session.onlineClients) : (session.detach fd ptr).Consistent := by
  have mem_iff : ∀ itr, itr ∈ (session.detach fd ptr).onlineClients ↔
      itr ∈ session.onlineClients ∧ itr.1 ≠ fd := fun itr =>
    KeyedList.mem_remove_iff consistent.socketsDistinct
  obtain ⟨stdinActive, tcpActive, udpActive⟩ := consistent.serverActive
  obtain ⟨_, notStdin, notTcp, notUdp⟩ := reported
  have detachedIds : KeyedList.Distinct
      (fun other => ((session.detach fd ptr).clients other).id) session.allClients :=
    consistent.ids_modify ptr (fun client => { client with online := false }) rfl
  have sublist : (KeyedList.remove Prod.fst fd session.onlineClients).Sublist
      session.onlineClients := KeyedList.remove_sublist fd _
  exact {
    idsDistinct := detachedIds
    onlineRegistered := fun itr member =>
      consistent.onlineRegistered itr ((mem_iff itr).mp member).1
    onlineOnce := consistent.onlineOnce.sublist (sublist.map Prod.snd)
    socketsDistinct := KeyedList.distinct_remove fd consistent.socketsDistinct
    flag := by
      intro other member
      by_cases same : other = ptr
      · subst same
        have flagged : ((session.detach fd other).clients other).online = false := by simp
        rw [flagged]
        constructor
        · intro contradiction
          cases contradiction
        · rintro ⟨fd', still⟩
          obtain ⟨earlier, differs⟩ := (mem_iff _).mp still
          have sockets := List.inj_on_of_nodup_map consistent.onlineOnce earlier online rfl
          exact absurd (congrArg Prod.fst sockets) differs
      · rw [detach_clients_of_ne session fd same, consistent.flag other member]
        constructor
        · rintro ⟨fd', earlier⟩
          refine ⟨fd', (mem_iff _).mpr ⟨earlier, ?_⟩⟩
          rintro rfl
          have clients := List.inj_on_of_nodup_map consistent.socketsDistinct earlier online rfl
          exact same (congrArg Prod.snd clients)
        · rintro ⟨fd', still⟩
          exact ⟨fd', ((mem_iff _).mp still).1⟩
    watched := by
      intro fd'
      have active_iff : fd' ∈ (session.detach fd ptr).activeFds ↔
          fd' ≠ fd ∧ fd' ∈ session.activeFds := Finset.mem_erase
      by_cases same : fd' = fd
      · subst same
        simp [Reports, active_iff, mem_iff]
      · have reports_iff : (session.detach fd ptr).Reports fd' ↔ session.Reports fd' := by
          simp only [Reports, active_iff, ne_eq, same, not_false_eq_true, true_and]
          rfl
        rw [reports_iff, consistent.watched]
        simp [mem_iff, same]
    activeOpen := Finset.erase_subset_erase fd consistent.activeOpen
    serverActive := ⟨Finset.mem_erase.mpr ⟨notStdin.symm, stdinActive⟩,
      Finset.mem_erase.mpr ⟨notTcp.symm, tcpActive⟩, Finset.mem_erase.mpr ⟨notUdp.symm, udpActive⟩⟩
    belowAllocated := consistent.belowAllocated }

/-- The session after the topics of a client have changed. -/
def setTopics (session : Session Text) (ptr : ClientPtr) (change : List Topic → List Topic) :
    Session Text :=
  session.modify ptr fun client => { client with topics := change client.topics }

@[simp] theorem setTopics_clients_same (session : Session Text) (ptr : ClientPtr)
    (change : List Topic → List Topic) :
    (session.setTopics ptr change).clients ptr =
      { session.clients ptr with topics := change (session.clients ptr).topics } := by
  simp [setTopics]

/-- A change of topics changes one record. -/
theorem setTopics_clients_of_ne (session : Session Text) (change : List Topic → List Topic)
    {ptr other : ClientPtr} (differs : other ≠ ptr) :
    (session.setTopics ptr change).clients other = session.clients other := by
  simp [setTopics, modify_clients_of_ne, differs]

/-- A change of topics is made for the client on the socket. -/
theorem changeTopics_eq {session : Session Text} {fd : Fd} {ptr : ClientPtr}
    (found : KeyedList.find Prod.fst fd session.onlineClients = some (fd, ptr))
    (change : List Topic → List Topic) :
    session.changeTopics fd change =
      some (session.setTopics ptr change, []) := by
  simp [changeTopics, found, setTopics]

/-- A change of topics keeps a session consistent. -/
theorem Consistent.setTopics {session : Session Text} (consistent : session.Consistent)
    (ptr : ClientPtr) (change : List Topic → List Topic) :
    (session.setTopics ptr change).Consistent := by
  let rewritten : Client Text → Client Text := fun client =>
    { client with topics := change client.topics }
  apply consistent.withClients
  · exact modify_field Client.id session ptr (show (rewritten _).id = _ from rfl)
  · exact modify_field Client.online session ptr (show (rewritten _).online = _ from rfl)

/-- A record after a text of a topic has been stored for it, if it is to be stored. -/
def storeText (topic : CString) (text : Text) (client : Client Text) : Client Text :=
  if client.online = false ∧ checkSfActive client topic = true then
    { client with pendingMessages := text :: client.pendingMessages }
  else
    client

/-- Storing a text changes one record. -/
theorem storeFor_eq (topic : CString) (text : Text) (session : Session Text) (ptr : ClientPtr) :
    storeFor topic text session ptr = session.modify ptr (storeText topic text) := by
  have unchanged : session.modify ptr (fun client => client) = session := by
    simp [modify, Function.update_eq_self]
  unfold storeFor
  by_cases offline : (session.clients ptr).online = false
  · by_cases wanted : checkSfActive (session.clients ptr) topic = true
    · simp [modify, storeText, offline, wanted, addStringToList]
    · simp [modify, storeText, offline, wanted]
  · simp [modify, storeText, offline]

/-- The storing loop stores the text once in every record that asks for it. -/
theorem foldl_storeFor (topic : CString) (text : Text) (session : Session Text)
    {ptrs : List ClientPtr} (distinct : ptrs.Nodup) :
    ptrs.foldl (storeFor topic text) session =
      { session with clients := fun ptr =>
          if ptr ∈ ptrs then storeText topic text (session.clients ptr)
          else session.clients ptr } := by
  induction ptrs generalizing session with
  | nil => simp
  | cons first rest ih =>
      obtain ⟨fresh, later⟩ := List.nodup_cons.mp distinct
      rw [List.foldl_cons, storeFor_eq, ih _ later]
      simp only [modify, Session.mk.injEq, and_self, and_true]
      ext ptr : 1
      by_cases same : ptr = first
      · simp [same, fresh]
      · simp [same]

/-- Nobody is known twice. -/
theorem Consistent.allClients_nodup {session : Session Text} (consistent : session.Consistent) :
    session.allClients.Nodup :=
  List.Nodup.of_map _ consistent.idsDistinct

/-- Publishing changes each known record by itself. -/
theorem Consistent.publish_eq {session : Session Text} (consistent : session.Consistent)
    (topic : CString) (text : Text) :
    (session.publish topic text).1 =
      { session with clients := fun ptr =>
          if ptr ∈ session.allClients then storeText topic text (session.clients ptr)
          else session.clients ptr } :=
  foldl_storeFor topic text session consistent.allClients_nodup

/-- Storing a text leaves the id. -/
theorem storeText_id (topic : CString) (text : Text) (client : Client Text) :
    (storeText topic text client).id = client.id := by
  unfold storeText
  split <;> rfl

/-- Storing a text leaves a client online or not. -/
theorem storeText_online (topic : CString) (text : Text) (client : Client Text) :
    (storeText topic text client).online = client.online := by
  unfold storeText
  split <;> rfl

/-- Storing a text leaves the topics. -/
theorem storeText_topics (topic : CString) (text : Text) (client : Client Text) :
    (storeText topic text client).topics = client.topics := by
  unfold storeText
  split <;> rfl

/-- Publishing keeps a session consistent. -/
theorem Consistent.publish {session : Session Text} (consistent : session.Consistent)
    (topic : CString) (text : Text) : (session.publish topic text).1.Consistent := by
  rw [consistent.publish_eq]
  apply consistent.withClients
  · intro ptr
    split
    · exact storeText_id topic text _
    · rfl
  · intro ptr
    split
    · exact storeText_online topic text _
    · rfl

/-! ## Events that touch one record -/

/-- At most one record has changed, and not its id. -/
structure ChangesRecord (before after : Session Text) (ptr : ClientPtr) : Prop where
  others : ∀ other, other ≠ ptr → after.clients other = before.clients other
  sameId : (after.clients ptr).id = (before.clients ptr).id
  allocated : after.allocated = before.allocated
  allClients : after.allClients = before.allClients

/-- No id has changed. -/
theorem ChangesRecord.id {before after : Session Text} {ptr : ClientPtr}
    (changes : ChangesRecord before after ptr) (other : ClientPtr) :
    (after.clients other).id = (before.clients other).id := by
  by_cases same : other = ptr
  · rw [same, changes.sameId]
  · rw [changes.others other same]

/-- Every client is found where it was. -/
theorem ChangesRecord.getClient {before after : Session Text} {ptr : ClientPtr}
    (changes : ChangesRecord before after ptr) (id : CString) :
    after.getClient id = before.getClient id :=
  getClient_congr changes.id changes.allClients

/-- Attaching changes one record at most. -/
theorem attach_changes (session : Session Text) (fd : Fd) (ptr : ClientPtr) :
    ChangesRecord session (session.attach fd ptr) ptr where
  others _ := attach_clients_of_ne session fd
  sameId := by rw [attach_clients_same]
  allocated := rfl
  allClients := rfl

/-- Detaching changes one record at most. -/
theorem detach_changes (session : Session Text) (fd : Fd) (ptr : ClientPtr) :
    ChangesRecord session (session.detach fd ptr) ptr where
  others _ := detach_clients_of_ne session fd
  sameId := by rw [detach_clients_same]
  allocated := rfl
  allClients := rfl

/-- A change of topics changes one record at most. -/
theorem setTopics_changes (session : Session Text) (ptr : ClientPtr)
    (change : List Topic → List Topic) :
    ChangesRecord session (session.setTopics ptr change) ptr where
  others _ := setTopics_clients_of_ne session change
  sameId := by rw [setTopics_clients_same]
  allocated := rfl
  allClients := rfl

/-! ## Steps and runs -/

/-- What one admitted event does to a session in agreement. -/
inductive Effect (session : Session Text) :
    Event Text → Session Text → List (Output Text) → Prop where
  | refused {fd id} (taken : session.checkUniqueId id = false) :
      Effect session (.connect fd id) { session with openFds := insert fd session.openFds }
        [.refuse fd]
  | accepted {fd id} (closed : fd ∉ session.openFds) (valid : ValidId id)
      (unique : session.checkUniqueId id = true) :
      Effect session (.connect fd id) ((session.enroll id).1.attach fd (session.enroll id).2)
        (((session.enroll id).1.clients (session.enroll id).2).pendingMessages.map (.send fd))
  | gone {fd ptr} (reported : session.Reports fd) (online : (fd, ptr) ∈ session.onlineClients) :
      Effect session (.disconnect fd) (session.detach fd ptr) []
  | subscribed {fd ptr topic sf} (online : (fd, ptr) ∈ session.onlineClients) :
      Effect session (.subscribe fd topic sf)
        (session.setTopics ptr (addTopic topic sf)) []
  | unsubscribed {fd ptr topic} (online : (fd, ptr) ∈ session.onlineClients) :
      Effect session (.unsubscribe fd topic)
        (session.setTopics ptr (removeTopic topic)) []
  | published {topic text} :
      Effect session (.publish topic text) (session.publish topic text).1
        (session.sendToOnline topic text)

/-- Every admitted event has its effect; no search fails. -/
theorem Consistent.step {session : Session Text} (consistent : session.Consistent)
    {event : Event Text} (admitted : event.Admissible session) :
    ∃ after outputs, (sessionMachine Text).step session event = some (after, outputs) ∧
      session.Effect event after outputs := by
  cases event with
  | connect fd id =>
      obtain ⟨closed, valid⟩ := admitted
      cases unique : session.checkUniqueId id with
      | true => exact ⟨_, _, connect_unique unique, .accepted closed valid unique⟩
      | false => exact ⟨_, _, connect_refused unique, .refused unique⟩
  | disconnect fd =>
      obtain ⟨ptr, found⟩ := consistent.find_of_reports admitted
      exact ⟨_, _, disconnect_eq found, .gone admitted (KeyedList.find_eq_some found).1⟩
  | subscribe fd topic sf =>
      obtain ⟨ptr, found⟩ := consistent.find_of_reports admitted
      exact ⟨_, _, changeTopics_eq found _, .subscribed (KeyedList.find_eq_some found).1⟩
  | unsubscribe fd topic =>
      obtain ⟨ptr, found⟩ := consistent.find_of_reports admitted
      exact ⟨_, _, changeTopics_eq found _, .unsubscribed (KeyedList.find_eq_some found).1⟩
  | publish topic text => exact ⟨_, _, rfl, .published⟩

/-- The step of a genuine transition is its event's effect. -/
theorem Consistent.effect {transition : Transition (Session Text) (Event Text) (Output Text)}
    (consistent : transition.before.Consistent)
    (genuine : (sessionMachine Text).Genuine transition) :
    transition.before.Effect transition.event transition.after transition.outputs := by
  obtain ⟨after, outputs, stepped, effect⟩ := consistent.step genuine.admitted
  obtain ⟨sameAfter, sameOutputs⟩ :=
    Prod.mk.inj (Option.some.inj (genuine.stepped.symm.trans stepped))
  rwa [sameAfter, sameOutputs]

/-- Whatever an event does, a consistent session stays consistent. -/
theorem Effect.consistent {session after : Session Text} {event : Event Text}
    {outputs : List (Output Text)} (effect : session.Effect event after outputs)
    (consistent : session.Consistent) : after.Consistent := by
  cases effect with
  | refused taken =>
      exact { consistent with
        activeOpen := consistent.activeOpen.trans (Finset.subset_insert _ _) }
  | @accepted fd id closed valid unique =>
      exact (consistent.enroll id).attach (by rwa [enroll_openFds]) (enroll_ptr_mem session id)
        (consistent.enroll_offline unique)
  | gone reported online => exact consistent.detach reported online
  | subscribed online => exact consistent.setTopics _ _
  | unsubscribed online => exact consistent.setTopics _ _
  | published => exact consistent.publish _ _

/-- Every transition keeps a session consistent. -/
theorem consistent_preserved (transition : Transition (Session Text) (Event Text) (Output Text))
    (genuine : (sessionMachine Text).Genuine transition)
    (consistent : transition.before.Consistent) : transition.after.Consistent :=
  (consistent.effect genuine).consistent consistent

/-- The four places agree wherever a run ends. -/
theorem consistent_of_run {start final : Session Text}
    {trace : List (Transition (Session Text) (Event Text) (Output Text))}
    (initial : start.Initial) (run : (sessionMachine Text).Run start trace final) :
    final.Consistent :=
  run.invariant consistent_preserved initial.consistent

end Session

end CommunicationProtocols.Server
