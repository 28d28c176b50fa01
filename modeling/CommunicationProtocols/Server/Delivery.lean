import CommunicationProtocols.Server.SessionInvariant

/-!
# What a step delivers

For the client of one id a step of the server does one of four things: nothing,
send its pending list when its connection is accepted, send it the text of a
datagram, or store that text for it. The map, the online flag, the topic lists
and the pending lists together decide which.
-/

namespace CommunicationProtocols.Server

open Library

variable {Text : Type*}

namespace Session

/-! ## What is observed -/

/-- The id of the client a socket belongs to. -/
def ownerOf (session : Session Text) (fd : Fd) : Option CString :=
  (KeyedList.find Prod.fst fd session.onlineClients).map fun itr => (session.clients itr.2).id

/-- The texts that wait for the client of an id. -/
def pendingOf (session : Session Text) (id : CString) : List Text :=
  match session.getClient id with
  | some ptr => (session.clients ptr).pendingMessages
  | none => []

/-- The client of an id is registered and either online and subscribed to the
topic, or offline and subscribed to it with `sf = 1`. -/
def Eligible (session : Session Text) (id topic : CString) : Prop :=
  ∃ ptr ∈ session.allClients, (session.clients ptr).id = id ∧
    (((session.clients ptr).online = true ∧
        ∃ sf, (⟨topic, sf⟩ : Topic) ∈ (session.clients ptr).topics) ∨
      ((session.clients ptr).online = false ∧
        (⟨topic, true⟩ : Topic) ∈ (session.clients ptr).topics))

instance (session : Session Text) (id topic : CString) : Decidable (session.Eligible id topic) :=
  inferInstanceAs (Decidable (∃ ptr ∈ session.allClients, _))

end Session

/-- The texts among the outputs of a step that go to the client of an id; a
socket opened in the step belongs to the client it was opened for. -/
def textsTo (id : CString) (transition : Transition (Session Text) (Event Text) (Output Text)) :
    List Text :=
  transition.outputs.filterMap fun output => match output with
    | .send fd text => if transition.after.ownerOf fd = some id then some text else none
    | .refuse _ => none

/-- The text of a datagram for which the client of an id is eligible. -/
def eligibleText (id : CString)
    (transition : Transition (Session Text) (Event Text) (Output Text)) : List Text :=
  match transition.event with
  | .publish topic text => if transition.before.Eligible id topic then [text] else []
  | _ => []

namespace Session

/-! ## The state of the lists -/

/-- A session in agreement whose lists started empty and name no topic twice. -/
structure Clean (session : Session Text) : Prop where
  consistent : session.Consistent
  fresh : session.FreshMemory
  topicsDistinct : ∀ ptr ∈ session.allClients,
    KeyedList.Distinct Topic.name (session.clients ptr).topics

/-- A start with empty records is clean. -/
theorem Initial.clean {session : Session Text} (initial : session.Initial)
    (fresh : session.FreshMemory) : session.Clean where
  consistent := initial.consistent
  fresh := fresh
  topicsDistinct := by simp [initial.nobodyKnown]

/-- A client is subscribed exactly if its list has the topic. -/
theorem checkSubscription_iff {client : Client Text} {topic : CString} :
    checkSubscription client topic = true ↔ ∃ sf, (⟨topic, sf⟩ : Topic) ∈ client.topics := by
  unfold checkSubscription
  rw [Option.isSome_iff_exists]
  constructor
  · rintro ⟨⟨name, sf⟩, found⟩
    obtain ⟨member, rfl⟩ := KeyedList.find_eq_some found
    exact ⟨sf, member⟩
  · rintro ⟨sf, member⟩
    exact KeyedList.exists_find_of_mem member

/-- Store and forward is on exactly if the list has the topic with that flag. -/
theorem checkSfActive_iff {client : Client Text} {topic : CString}
    (distinct : KeyedList.Distinct Topic.name client.topics) :
    checkSfActive client topic = true ↔ (⟨topic, true⟩ : Topic) ∈ client.topics := by
  unfold checkSfActive
  constructor
  · intro active
    cases found : KeyedList.find Topic.name topic client.topics with
    | none =>
        rw [found] at active
        cases active
    | some entry =>
        rw [found] at active
        obtain ⟨name, sf⟩ := entry
        obtain ⟨member, rfl⟩ := KeyedList.find_eq_some found
        obtain rfl : sf = true := active
        exact member
  · intro member
    have found := KeyedList.find_of_mem distinct member
    rw [found]

/-- What a client is eligible for, at its record. -/
theorem Clean.eligible_iff {session : Session Text} (clean : session.Clean) {ptr : ClientPtr}
    (member : ptr ∈ session.allClients) (topic : CString) :
    session.Eligible (session.clients ptr).id topic ↔
      ((session.clients ptr).online = true ∧
          checkSubscription (session.clients ptr) topic = true) ∨
        ((session.clients ptr).online = false ∧
          checkSfActive (session.clients ptr) topic = true) := by
  rw [checkSubscription_iff, checkSfActive_iff (clean.topicsDistinct ptr member)]
  constructor
  · rintro ⟨other, otherMember, same, holds⟩
    rwa [List.inj_on_of_nodup_map clean.consistent.idsDistinct otherMember member same] at holds
  · intro holds
    exact ⟨ptr, member, rfl, holds⟩

/-- A client that is not known is eligible for nothing. -/
theorem not_eligible_of_unknown {session : Session Text} {id : CString}
    (unknown : session.getClient id = none) (topic : CString) : ¬ session.Eligible id topic := by
  rintro ⟨ptr, member, same, _⟩
  exact getClient_eq_none_iff.mp unknown ptr member same

/-- What is pending for a known client is in its record. -/
theorem pendingOf_of_mem {session : Session Text} (consistent : session.Consistent)
    {ptr : ClientPtr} (member : ptr ∈ session.allClients) :
    session.pendingOf (session.clients ptr).id = (session.clients ptr).pendingMessages := by
  simp [pendingOf, consistent.getClient_of_mem member]

/-- For a client that is not known nothing is pending. -/
theorem pendingOf_of_unknown {session : Session Text} {id : CString}
    (unknown : session.getClient id = none) : session.pendingOf id = [] := by
  simp [pendingOf, unknown]

/-- An id is unknown or the id of a registered client. -/
theorem known_or_unknown (session : Session Text) (id : CString) :
    session.getClient id = none ∨
      ∃ ptr ∈ session.allClients, (session.clients ptr).id = id := by
  cases found : session.getClient id with
  | none => exact .inl rfl
  | some ptr => exact .inr ⟨ptr, getClient_eq_some found⟩

/-- A change of one record leaves alone what waits for the other ids. -/
theorem ChangesRecord.pendingOf_of_ne {session after : Session Text} {ptr : ClientPtr}
    (changes : ChangesRecord session after ptr) {id : CString}
    (differs : (session.clients ptr).id ≠ id) : after.pendingOf id = session.pendingOf id := by
  unfold pendingOf
  rw [changes.getClient]
  cases found : session.getClient id with
  | none => rfl
  | some other =>
      have different : other ≠ ptr := by
        rintro rfl
        exact differs (getClient_eq_some found).2
      simp only [changes.others other different]

/-- A change that leaves the pending list alone leaves alone what waits for any id. -/
theorem ChangesRecord.pendingOf {session after : Session Text} {ptr : ClientPtr}
    (changes : ChangesRecord session after ptr)
    (kept : (after.clients ptr).pendingMessages = (session.clients ptr).pendingMessages)
    (id : CString) : after.pendingOf id = session.pendingOf id := by
  unfold Session.pendingOf
  rw [changes.getClient]
  cases session.getClient id with
  | none => rfl
  | some other =>
      by_cases same : other = ptr
      · simp only [same, kept]
      · simp only [changes.others other same]

/-! ## Steps keep the lists clean -/

/-- Enrolling keeps a session clean. -/
theorem enroll_clean {session : Session Text} (clean : session.Clean) (id : CString) :
    (session.enroll id).1.Clean where
  consistent := clean.consistent.enroll id
  fresh := by
    unfold enroll
    cases session.getClient id with
    | some ptr => exact clean.fresh
    | none =>
        intro ptr above
        have other : ptr ≠ session.allocated := (Nat.lt_of_succ_le above).ne'
        simp only [register, modify_clients_of_ne session _ other]
        exact clean.fresh ptr (Nat.le_of_succ_le above)
  topicsDistinct := by
    unfold enroll
    cases session.getClient id with
    | some ptr => exact clean.topicsDistinct
    | none =>
        intro ptr member
        rcases List.mem_cons.mp member with rfl | known
        · have empty := (clean.fresh session.allocated (le_refl _)).1
          simp [register, KeyedList.Distinct, empty]
        · rw [register_clients_of_mem clean.consistent known]
          exact clean.topicsDistinct ptr known

/-- Admitting a client changes nobody's pending texts. -/
theorem enroll_pendingOf {session : Session Text} (clean : session.Clean) (id other : CString) :
    (session.enroll id).1.pendingOf other = session.pendingOf other := by
  unfold enroll
  cases unknown : session.getClient id with
  | some ptr => rfl
  | none =>
      have registered := clean.consistent.register unknown
      rcases known_or_unknown session other with absent | ⟨ptr, member, rfl⟩
      · rw [pendingOf_of_unknown absent]
        by_cases same : other = id
        · subst same
          have newId : ((session.register other).clients session.allocated).id = other := by
            simp [register]
          have found := pendingOf_of_mem registered
            (show session.allocated ∈ (session.register other).allClients from List.mem_cons_self)
          rw [newId] at found
          rw [found]
          simp [register, (clean.fresh session.allocated (le_refl _)).2]
        · apply pendingOf_of_unknown
          rw [getClient_eq_none_iff]
          intro ptr member
          rcases List.mem_cons.mp member with rfl | known
          · simpa [register] using Ne.symm same
          · rw [register_clients_of_mem clean.consistent known]
            exact getClient_eq_none_iff.mp absent ptr known
      · have kept : (session.register id).clients ptr = session.clients ptr :=
          register_clients_of_mem clean.consistent member
        have found := pendingOf_of_mem registered (List.mem_cons_of_mem session.allocated member)
        rw [kept] at found
        rw [found, pendingOf_of_mem clean.consistent member]

/-- A session stays clean if its topics stay distinct and new records are not touched. -/
theorem Clean.of_clients {session session' : Session Text} (clean : session.Clean)
    (consistent : session'.Consistent) (allocated : session'.allocated = session.allocated)
    (all : session'.allClients = session.allClients)
    (fresh : ∀ ptr, session.allocated ≤ ptr → session'.clients ptr = session.clients ptr)
    (topics : ∀ ptr ∈ session.allClients,
      KeyedList.Distinct Topic.name (session'.clients ptr).topics) : session'.Clean where
  consistent := consistent
  fresh ptr above := by
    rw [allocated] at above
    rw [fresh ptr above]
    exact clean.fresh ptr above
  topicsDistinct ptr member := topics ptr (all ▸ member)

/-- A change of one registered client's record keeps the lists clean if its topics are. -/
theorem Clean.of_record {session after : Session Text} (clean : session.Clean)
    (consistent : after.Consistent) {ptr : ClientPtr} (registered : ptr ∈ session.allClients)
    (changes : ChangesRecord session after ptr)
    (topics : KeyedList.Distinct Topic.name (after.clients ptr).topics) : after.Clean := by
  refine clean.of_clients consistent changes.allocated changes.allClients ?_ ?_
  · intro other above
    exact changes.others other
      ((clean.consistent.belowAllocated ptr registered).trans_le above).ne'
  · intro other member
    by_cases same : other = ptr
    · rw [same]
      exact topics
    · rw [changes.others other same]
      exact clean.topicsDistinct other member

/-- A change that keeps topics distinct keeps a session clean. -/
theorem setTopics_clean {session : Session Text} (clean : session.Clean) {fd : Fd}
    {ptr : ClientPtr} (online : (fd, ptr) ∈ session.onlineClients)
    {change : List Topic → List Topic}
    (keeps : ∀ topics, KeyedList.Distinct Topic.name topics →
      KeyedList.Distinct Topic.name (change topics)) : (session.setTopics ptr change).Clean := by
  have registered := clean.consistent.onlineRegistered _ online
  apply clean.of_record (clean.consistent.setTopics ptr change) registered
    (setTopics_changes session ptr change)
  rw [setTopics_clients_same]
  exact keeps _ (clean.topicsDistinct ptr registered)

/-- Attaching a socket keeps a session clean. -/
theorem attach_clean {session : Session Text} (clean : session.Clean) {fd : Fd} {ptr : ClientPtr}
    (consistent : (session.attach fd ptr).Consistent) (registered : ptr ∈ session.allClients) :
    (session.attach fd ptr).Clean := by
  apply clean.of_record consistent registered (attach_changes session fd ptr)
  rw [attach_clients_same]
  exact clean.topicsDistinct ptr registered

/-- Detaching a socket keeps a session clean. -/
theorem detach_clean {session : Session Text} (clean : session.Clean) {fd : Fd} {ptr : ClientPtr}
    (consistent : (session.detach fd ptr).Consistent) (registered : ptr ∈ session.allClients) :
    (session.detach fd ptr).Clean := by
  apply clean.of_record consistent registered (detach_changes session fd ptr)
  rw [detach_clients_same]
  exact clean.topicsDistinct ptr registered

/-- Publishing keeps a session clean. -/
theorem publish_clean {session : Session Text} (clean : session.Clean) (topic : CString)
    (text : Text) : (session.publish topic text).1.Clean := by
  have consistent := clean.consistent.publish topic text
  rw [clean.consistent.publish_eq] at consistent ⊢
  refine clean.of_clients consistent rfl rfl ?_ ?_
  · intro other above
    have unknown : other ∉ session.allClients := fun member =>
      absurd (clean.consistent.belowAllocated other member) (Nat.not_lt.mpr above)
    simp only [unknown, if_false]
  · intro other member
    simp only [member, if_true, storeText_topics]
    exact clean.topicsDistinct other member

/-- Whatever an event does, a clean session stays clean. -/
theorem Effect.clean {session after : Session Text} {event : Event Text}
    {outputs : List (Output Text)} (effect : session.Effect event after outputs)
    (clean : session.Clean) : after.Clean := by
  have consistent := effect.consistent clean.consistent
  cases effect with
  | refused taken =>
      exact clean.of_clients consistent rfl rfl (fun _ _ => rfl) clean.topicsDistinct
  | @accepted fd id closed valid unique =>
      exact attach_clean (enroll_clean clean id) consistent (enroll_ptr_mem session id)
  | gone reported online =>
      exact detach_clean clean consistent (clean.consistent.onlineRegistered _ online)
  | subscribed online =>
      exact setTopics_clean clean online fun _ => KeyedList.distinct_put _
  | unsubscribed online =>
      exact setTopics_clean clean online fun _ => KeyedList.distinct_remove _
  | published => exact publish_clean clean _ _

/-- Every transition keeps a session clean. -/
theorem clean_preserved (transition : Transition (Session Text) (Event Text) (Output Text))
    (genuine : (sessionMachine Text).Genuine transition) (clean : transition.before.Clean) :
    transition.after.Clean :=
  (clean.consistent.effect genuine).clean clean

/-! ## The four kinds of steps -/

/-- The owner of a socket is the client that is online on it. -/
theorem ownerOf_of_mem {session : Session Text} (consistent : session.Consistent) {fd : Fd}
    {ptr : ClientPtr} (online : (fd, ptr) ∈ session.onlineClients) :
    session.ownerOf fd = some (session.clients ptr).id := by
  have found := KeyedList.find_of_mem consistent.socketsDistinct online
  simp [ownerOf, found]

/-- What an accepted connection sends to the client of an id, and what is pending for
it afterwards. -/
theorem attach_delivers (before : Session Text) {session : Session Text} {fd : Fd}
    {ptr : ClientPtr} (consistent : session.Consistent)
    (attached : (session.attach fd ptr).Consistent) (registered : ptr ∈ session.allClients)
    (online : (fd, ptr) ∈ (session.attach fd ptr).onlineClients) (event : Event Text)
    (id : CString) :
    ((session.clients ptr).id = id →
        textsTo id ⟨before, event, (session.clients ptr).pendingMessages.map (.send fd),
          session.attach fd ptr⟩ = session.pendingOf id ∧
        (session.attach fd ptr).pendingOf id = []) ∧
      ((session.clients ptr).id ≠ id →
        textsTo id ⟨before, event, (session.clients ptr).pendingMessages.map (.send fd),
          session.attach fd ptr⟩ = [] ∧
        (session.attach fd ptr).pendingOf id = session.pendingOf id) := by
  have changes := attach_changes session fd ptr
  have owner := ownerOf_of_mem attached online
  rw [changes.id] at owner
  constructor
  · rintro rfl
    have emptied : (session.attach fd ptr).pendingOf ((session.attach fd ptr).clients ptr).id =
        ((session.attach fd ptr).clients ptr).pendingMessages :=
      pendingOf_of_mem attached registered
    rw [changes.id, attach_clients_same] at emptied
    rw [pendingOf_of_mem consistent registered]
    exact ⟨by simp [textsTo, List.filterMap_map, owner], emptied⟩
  · intro differs
    exact ⟨by simp [textsTo, List.filterMap_map, owner, differs], changes.pendingOf_of_ne differs⟩

/-- No two sockets belong to clients of one id. -/
theorem Consistent.onlineIdsDistinct {session : Session Text} (consistent : session.Consistent) :
    KeyedList.Distinct (fun itr => (session.clients itr.2).id) session.onlineClients := by
  have injective : ∀ ptr ∈ session.onlineClients.map Prod.snd,
      ∀ other ∈ session.onlineClients.map Prod.snd,
        (session.clients ptr).id = (session.clients other).id → ptr = other := by
    intro ptr member other otherMember
    obtain ⟨itr, online, rfl⟩ := List.mem_map.mp member
    obtain ⟨itr', online', rfl⟩ := List.mem_map.mp otherMember
    exact List.inj_on_of_nodup_map consistent.idsDistinct
      (consistent.onlineRegistered itr online) (consistent.onlineRegistered itr' online')
  have mapped := consistent.onlineOnce.map_on injective
  rwa [List.map_map] at mapped

/-- Publishing leaves every socket its owner. -/
theorem publish_ownerOf {session : Session Text} (consistent : session.Consistent)
    (topic : CString) (text : Text) (fd : Fd) :
    (session.publish topic text).1.ownerOf fd = session.ownerOf fd := by
  rw [consistent.publish_eq]
  simp only [ownerOf, apply_ite Client.id, storeText_id, ite_self]

/-- Publishing leaves every client where it is found. -/
theorem publish_getClient {session : Session Text} (consistent : session.Consistent)
    (topic : CString) (text : Text) (id : CString) :
    (session.publish topic text).1.getClient id = session.getClient id := by
  rw [consistent.publish_eq]
  simp only [getClient, apply_ite Client.id, storeText_id, ite_self]

/-- What a datagram sends to the client of an id: its text, if the client is online
and subscribed. -/
theorem publish_textsTo {session : Session Text} (consistent : session.Consistent)
    (topic : CString) (text : Text) (id : CString) :
    textsTo id ⟨session, .publish topic text, session.sendToOnline topic text,
        (session.publish topic text).1⟩ =
      (((KeyedList.find (fun itr => (session.clients itr.2).id) id
        session.onlineClients).toList.filter fun itr =>
          checkSubscription (session.clients itr.2) topic).map fun _ => text) := by
  have owners : ∀ itr ∈ session.onlineClients,
      session.ownerOf itr.1 = some id ↔ (session.clients itr.2).id = id := by
    rintro ⟨fd, ptr⟩ online
    rw [ownerOf_of_mem consistent online, Option.some.injEq]
  rw [← KeyedList.filter_key_eq consistent.onlineIdsDistinct]
  unfold textsTo sendToOnline
  simp only [publish_ownerOf consistent, List.filterMap_map]
  generalize session.onlineClients = clients at owners
  induction clients with
  | nil => rfl
  | cons itr rest ih =>
      have here := owners itr List.mem_cons_self
      have later := ih fun other member => owners other (List.mem_cons_of_mem itr member)
      by_cases subscribed : checkSubscription (session.clients itr.2) topic = true
      · by_cases owned : (session.clients itr.2).id = id
        · simpa [subscribed, owned, here.mpr owned] using later
        · simpa [subscribed, owned, mt here.mp owned] using later
      · by_cases owned : (session.clients itr.2).id = id
        · simpa [subscribed, owned] using later
        · simpa [subscribed, owned] using later

/-- The client of an id is registered and online. -/
def IsOnline (session : Session Text) (id : CString) : Prop :=
  ∃ ptr ∈ session.allClients, (session.clients ptr).id = id ∧ (session.clients ptr).online = true

/-- What a step does for the client of an id. -/
inductive DeliveryStep (id : CString)
    (transition : Transition (Session Text) (Event Text) (Output Text)) : Prop where
  | idle (sent : textsTo id transition = [])
      (kept : transition.after.pendingOf id = transition.before.pendingOf id)
      (ineligible : eligibleText id transition = [])
      (notAccepted : ∀ fd, transition.event = .connect fd id →
        transition.before.checkUniqueId id = false)
  | drained (fd : Fd) (event : transition.event = .connect fd id)
      (unique : transition.before.checkUniqueId id = true)
      (sent : textsTo id transition = transition.before.pendingOf id)
      (emptied : transition.after.pendingOf id = [])
  | live (topic : CString) (text : Text) (event : transition.event = .publish topic text)
      (online : transition.before.IsOnline id) (eligible : eligibleText id transition = [text])
      (sent : textsTo id transition = [text])
      (kept : transition.after.pendingOf id = transition.before.pendingOf id)
  | stored (topic : CString) (text : Text) (event : transition.event = .publish topic text)
      (eligible : eligibleText id transition = [text]) (sent : textsTo id transition = [])
      (added : transition.after.pendingOf id = text :: transition.before.pendingOf id)

/-- A datagram does nothing for an id nobody has. -/
theorem publish_unknown {session : Session Text} (clean : session.Clean) {id : CString}
    (unknown : session.getClient id = none) (topic : CString) (text : Text) :
    DeliveryStep id ⟨session, .publish topic text, session.sendToOnline topic text,
      (session.publish topic text).1⟩ := by
  have nobody : KeyedList.find (fun itr => (session.clients itr.2).id) id
      session.onlineClients = none := by
    rw [KeyedList.find_eq_none_iff]
    intro itr online
    exact getClient_eq_none_iff.mp unknown itr.2
      (clean.consistent.onlineRegistered itr online)
  apply DeliveryStep.idle
  · rw [publish_textsTo clean.consistent, nobody]
    rfl
  · rw [pendingOf_of_unknown unknown,
      pendingOf_of_unknown ((publish_getClient clean.consistent topic text id).trans unknown)]
  · exact if_neg (not_eligible_of_unknown unknown topic)
  · intro fd contradiction
    cases contradiction

/-- A datagram is sent to or stored for a registered client if it is eligible. -/
theorem publish_known {session : Session Text} (clean : session.Clean) {ptr : ClientPtr}
    (member : ptr ∈ session.allClients) (topic : CString) (text : Text) :
    DeliveryStep (session.clients ptr).id ⟨session, .publish topic text,
      session.sendToOnline topic text, (session.publish topic text).1⟩ := by
  have sent := publish_textsTo clean.consistent topic text (session.clients ptr).id
  have eligible := clean.eligible_iff member topic
  have pending : (session.publish topic text).1.pendingOf (session.clients ptr).id =
      (storeText topic text (session.clients ptr)).pendingMessages := by
    unfold pendingOf
    rw [publish_getClient clean.consistent, clean.consistent.getClient_of_mem member,
      clean.consistent.publish_eq]
    simp [member]
  have before := pendingOf_of_mem clean.consistent member
  cases flag : (session.clients ptr).online with
  | true =>
      obtain ⟨fd, online⟩ := (clean.consistent.flag ptr member).mp flag
      have found := KeyedList.find_of_mem clean.consistent.onlineIdsDistinct online
      simp only at found
      rw [found] at sent
      by_cases subscribed : checkSubscription (session.clients ptr) topic = true
      · have isOnline : session.IsOnline (session.clients ptr).id := ⟨ptr, member, rfl, flag⟩
        refine .live topic text rfl isOnline ?_ ?_ ?_
        · simp [eligibleText, eligible, flag, subscribed]
        · simpa [subscribed] using sent
        · simp [pending, before, storeText, flag]
      · apply DeliveryStep.idle
        · simpa [subscribed] using sent
        · simp [pending, before, storeText, flag]
        · simp [eligibleText, eligible, flag, subscribed]
        · intro fd contradiction
          cases contradiction
  | false =>
      have nobody : KeyedList.find (fun itr => (session.clients itr.2).id)
          (session.clients ptr).id session.onlineClients = none := by
        rw [KeyedList.find_eq_none_iff]
        intro itr online same
        have registered := clean.consistent.onlineRegistered itr online
        obtain rfl := List.inj_on_of_nodup_map clean.consistent.idsDistinct registered member same
        have flagged := (clean.consistent.flag itr.2 registered).mpr ⟨itr.1, online⟩
        rw [flag] at flagged
        cases flagged
      rw [nobody] at sent
      by_cases wanted : checkSfActive (session.clients ptr) topic = true
      · apply DeliveryStep.stored topic text rfl
        · simp [eligibleText, eligible, flag, wanted]
        · simpa using sent
        · simp [pending, before, storeText, flag, wanted]
      · apply DeliveryStep.idle
        · simpa using sent
        · simp [pending, before, storeText, flag, wanted]
        · simp [eligibleText, eligible, flag, wanted]
        · intro fd contradiction
          cases contradiction

/-- An accepted connection drains the pending list of its client and no other. -/
theorem accepted_delivers {session : Session Text} (clean : session.Clean) {fd : Fd}
    {id' : CString} (closed : fd ∉ session.openFds) (unique : session.checkUniqueId id' = true)
    (attached : ((session.enroll id').1.attach fd (session.enroll id').2).Consistent)
    (id : CString) :
    DeliveryStep id ⟨session, .connect fd id',
      ((session.enroll id').1.clients (session.enroll id').2).pendingMessages.map (.send fd),
      (session.enroll id').1.attach fd (session.enroll id').2⟩ := by
  have consistent := clean.consistent.enroll id'
  have online : (fd, (session.enroll id').2) ∈
      ((session.enroll id').1.attach fd (session.enroll id').2).onlineClients :=
    (mem_attach consistent (by rwa [enroll_openFds]) _ _).mpr (.inl rfl)
  obtain ⟨forClient, forOthers⟩ := attach_delivers session consistent attached
    (enroll_ptr_mem session id') online (.connect fd id') id
  rw [enroll_ptr_id, enroll_pendingOf clean] at forClient forOthers
  by_cases same : id' = id
  · obtain ⟨sent, emptied⟩ := forClient same
    subst same
    exact .drained fd rfl unique sent emptied
  · obtain ⟨sent, kept⟩ := forOthers same
    refine .idle sent kept rfl fun fd' event => ?_
    cases event
    exact absurd rfl same

/-- Every step does one of the four things. -/
theorem deliveryStep (id : CString)
    {transition : Transition (Session Text) (Event Text) (Output Text)}
    (genuine : (sessionMachine Text).Genuine transition) (clean : transition.before.Clean) :
    DeliveryStep id transition := by
  have effect := clean.consistent.effect genuine
  have after_clean := effect.clean clean
  obtain ⟨session, event, outputs, after⟩ := transition
  simp only at effect clean after_clean
  cases effect with
  | @refused fd id' taken =>
      refine .idle rfl rfl rfl fun fd' event => ?_
      cases event
      exact taken
  | accepted closed valid unique =>
      exact accepted_delivers clean closed unique after_clean.consistent id
  | @gone fd ptr reported online =>
      have pending := (detach_changes session fd ptr).pendingOf (by rw [detach_clients_same]) id
      exact .idle rfl pending rfl fun fd' event => by cases event
  | @subscribed fd ptr topic sf online =>
      have pending := (setTopics_changes session ptr (addTopic topic sf)).pendingOf
        (by rw [setTopics_clients_same]) id
      exact .idle rfl pending rfl fun fd' event => by cases event
  | @unsubscribed fd ptr topic online =>
      have pending := (setTopics_changes session ptr (removeTopic topic)).pendingOf
        (by rw [setTopics_clients_same]) id
      exact .idle rfl pending rfl fun fd' event => by cases event
  | @published topic text =>
      rcases known_or_unknown session id with unknown | ⟨ptr, member, rfl⟩
      · exact publish_unknown clean unknown topic text
      · exact publish_known clean member topic text

end Session

end CommunicationProtocols.Server
