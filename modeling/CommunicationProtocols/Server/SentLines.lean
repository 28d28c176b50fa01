import CommunicationProtocols.Server.Delivery
import CommunicationProtocols.Server.Loop

/-!
# Who is sent what

A socket belongs to the client that was accepted on it until the server closes it. What
is sent on it are strings: the pending texts of its owner, and the lines of datagrams. A
refusal goes to a socket that nobody owns.
-/

namespace CommunicationProtocols.Server

open Library

variable {Text : Type*}

namespace Session

/-! ## The owners of sockets -/

/-- A client owns a socket exactly if it is online on it. -/
theorem ownerOf_eq_some_iff {session : Session Text} (consistent : session.Consistent) {fd : Fd}
    {id : CString} :
    session.ownerOf fd = some id ↔
      ∃ ptr, (fd, ptr) ∈ session.onlineClients ∧ (session.clients ptr).id = id := by
  constructor
  · intro owned
    obtain ⟨⟨fd', ptr⟩, found, same⟩ := Option.map_eq_some_iff.mp owned
    obtain ⟨member, rfl⟩ := KeyedList.find_eq_some found
    exact ⟨ptr, member, same⟩
  · rintro ⟨ptr, member, rfl⟩
    exact ownerOf_of_mem consistent member

/-- A descriptor that is not open has no owner. -/
theorem ownerOf_of_closed {session : Session Text} (consistent : session.Consistent) {fd : Fd}
    (closed : fd ∉ session.openFds) : session.ownerOf fd = none := by
  rw [ownerOf, KeyedList.find_eq_none_iff.mpr (consistent.unmapped closed)]
  rfl

/-- Enrolling leaves every socket its owner. -/
theorem enroll_ownerOf {session : Session Text} (consistent : session.Consistent) (id : CString)
    (fd : Fd) : (session.enroll id).1.ownerOf fd = session.ownerOf fd := by
  unfold enroll
  cases unknown : session.getClient id with
  | some ptr => rfl
  | none =>
      ext owner
      rw [ownerOf_eq_some_iff (consistent.register unknown), ownerOf_eq_some_iff consistent]
      refine exists_congr fun ptr => and_congr_right fun member => ?_
      rw [register_clients_of_mem consistent (consistent.onlineRegistered _ member)]

/-- Attaching gives one socket its owner. -/
theorem attach_ownerOf {session : Session Text} (consistent : session.Consistent) {fd : Fd}
    {ptr : ClientPtr} (closed : fd ∉ session.openFds)
    (attached : (session.attach fd ptr).Consistent) (other : Fd) :
    (session.attach fd ptr).ownerOf other =
      if other = fd then some (session.clients ptr).id else session.ownerOf other := by
  have changes := attach_changes session fd ptr
  have members := mem_attach consistent closed ptr
  split
  case isTrue same =>
    rw [same, ownerOf_of_mem attached ((members _).mpr (.inl rfl)), changes.id]
  case isFalse differs =>
    ext owner
    rw [ownerOf_eq_some_iff attached, ownerOf_eq_some_iff consistent]
    refine exists_congr fun ptr' => ?_
    rw [members, changes.id]
    simp [differs]

/-- Detaching takes one socket its owner. -/
theorem detach_ownerOf {session : Session Text} (consistent : session.Consistent) {fd : Fd}
    {ptr : ClientPtr} (detached : (session.detach fd ptr).Consistent) (other : Fd) :
    (session.detach fd ptr).ownerOf other =
      if other = fd then none else session.ownerOf other := by
  have changes := detach_changes session fd ptr
  have members : ∀ itr, itr ∈ (session.detach fd ptr).onlineClients ↔
      itr ∈ session.onlineClients ∧ itr.1 ≠ fd := fun itr =>
    KeyedList.mem_remove_iff consistent.socketsDistinct
  ext owner
  rw [ownerOf_eq_some_iff detached]
  split
  case isTrue same => simp [members, same]
  case isFalse differs =>
    rw [ownerOf_eq_some_iff consistent]
    refine exists_congr fun ptr' => ?_
    rw [members, changes.id]
    simp [differs]

/-- A change of topics leaves every socket its owner. -/
theorem setTopics_ownerOf (session : Session Text) (ptr : ClientPtr)
    (change : List Topic → List Topic) (fd : Fd) :
    (session.setTopics ptr change).ownerOf fd = session.ownerOf fd := by
  simp only [ownerOf, (setTopics_changes session ptr change).id]
  rfl

/-- Whose socket a descriptor is after an event. -/
def ownerAfter (session : Session Text) (fd : Fd) : Event Text → Option CString
  | .connect newsockfd id =>
      if fd = newsockfd ∧ session.checkUniqueId id = true then some id else session.ownerOf fd
  | .disconnect gone => if fd = gone then none else session.ownerOf fd
  | _ => session.ownerOf fd

/-- The open descriptors after an event. -/
def openAfter (session : Session Text) : Event Text → Finset Fd
  | .connect newsockfd _ => insert newsockfd session.openFds
  | .disconnect gone => session.openFds.erase gone
  | _ => session.openFds

/-- The owner of a socket after an event. -/
theorem Effect.ownerOf {session after : Session Text} {event : Event Text}
    {outputs : List (Output Text)} (effect : session.Effect event after outputs)
    (consistent : session.Consistent) (fd : Fd) :
    after.ownerOf fd = session.ownerAfter fd event := by
  have kept := effect.consistent consistent
  cases effect with
  | refused taken =>
      rw [ownerAfter, taken, if_neg (by simp)]
      rfl
  | @accepted newsockfd id closed valid unique =>
      rw [attach_ownerOf (consistent.enroll id) (by rwa [enroll_openFds]) kept, enroll_ptr_id,
        enroll_ownerOf consistent, ownerAfter, unique]
      simp only [and_true]
  | gone reported online => exact detach_ownerOf consistent kept fd
  | subscribed online => exact setTopics_ownerOf session _ _ fd
  | unsubscribed online => exact setTopics_ownerOf session _ _ fd
  | published => exact publish_ownerOf consistent _ _ fd

/-- The open descriptors after an event. -/
theorem Effect.openFds {session after : Session Text} {event : Event Text}
    {outputs : List (Output Text)} (effect : session.Effect event after outputs)
    (consistent : session.Consistent) : after.openFds = session.openAfter event := by
  cases effect with
  | refused taken => rfl
  | accepted closed valid unique => exact congrArg (insert _) (enroll_openFds session _)
  | gone reported online => rfl
  | subscribed online => rfl
  | unsubscribed online => rfl
  | published =>
      rw [consistent.publish_eq]
      rfl

/-! ## What is sent to whom -/

variable {transition : Transition (Session Text) (Event Text) (Output Text)}

/-- A refusal goes to a socket nobody owns. -/
theorem refused_unowned (genuine : (sessionMachine Text).Genuine transition)
    (consistent : transition.before.Consistent) {fd : Fd} (sent : .refuse fd ∈ transition.outputs) :
    transition.after.ownerOf fd = none := by
  have effect := consistent.effect genuine
  have owner := effect.ownerOf consistent fd
  have admitted := genuine.admitted
  obtain ⟨session, event, outputs, after⟩ := transition
  simp only at effect owner sent admitted
  cases effect with
  | refused taken =>
      obtain rfl := Output.refuse.inj (List.mem_singleton.mp sent)
      simp only [ownerAfter, taken, Bool.false_eq_true, and_false, if_false] at owner
      rw [owner]
      exact ownerOf_of_closed consistent admitted.1
  | accepted closed valid unique =>
      obtain ⟨text, _, same⟩ := List.mem_map.mp sent
      cases same
  | gone reported online => cases sent
  | subscribed online => cases sent
  | unsubscribed online => cases sent
  | published =>
      obtain ⟨itr, _, same⟩ := List.mem_map.mp sent
      cases same

/-- A text with a property that all texts have, of pending and of published ones. -/
theorem texts_keep (holds : Text → Prop) (genuine : (sessionMachine Text).Genuine transition)
    (clean : transition.before.Clean) (id : CString)
    (pending : ∀ text ∈ transition.before.pendingOf id, holds text)
    (published : ∀ topic text, transition.event = .publish topic text → holds text) :
    (∀ text ∈ textsTo id transition, holds text) ∧
      ∀ text ∈ transition.after.pendingOf id, holds text := by
  cases deliveryStep id genuine clean with
  | idle sent kept ineligible notAccepted =>
      rw [sent, kept]
      exact ⟨List.forall_mem_nil _, pending⟩
  | drained fd event unique sent emptied =>
      rw [sent, emptied]
      exact ⟨pending, List.forall_mem_nil _⟩
  | live topic text event online eligible sent kept =>
      rw [sent, kept]
      exact ⟨by simpa using published topic text event, pending⟩
  | stored topic text event eligible sent added =>
      rw [sent, added]
      exact ⟨List.forall_mem_nil _,
        List.forall_mem_cons.mpr ⟨published topic text event, pending⟩⟩

/-- A text that is sent on the socket of a client goes to that client. -/
theorem mem_textsTo {fd : Fd} {id : CString} {text : Text}
    (sent : .send fd text ∈ transition.outputs)
    (owned : transition.after.ownerOf fd = some id) : text ∈ textsTo id transition :=
  List.mem_filterMap.mpr ⟨_, sent, if_pos owned⟩

end Session

/-! ## The server's step -/

/-- A step of the server is silent, or it is a step of its bookkeeping whose outputs it
sends. -/
theorem ServerState.step_cases {floatText : FloatText} {server after : ServerState}
    {event : ServerEvent} {outputs : List Transmission} (admitted : server.Admissible event)
    (stepped : server.step floatText event = some (after, outputs)) :
    (server.meaning floatText event = none ∧ after.session = server.session ∧ outputs = []) ∨
      ∃ meant sent buffer, server.meaning floatText event = some meant ∧
        (sessionMachine CString).Genuine ⟨server.session, meant, sent, after.session⟩ ∧
        outputs = sent.map (transmission buffer) := by
  have admissible {meant : Event CString} := @meaning_admissible floatText _ _ meant admitted
  cases event with
  | connection newsockfd bytes =>
      obtain ⟨⟨session, sent⟩, connected, same⟩ := Option.map_eq_some_iff.mp stepped
      cases same
      exact .inr ⟨_, sent, _, rfl, ⟨admissible rfl, connected⟩, rfl⟩
  | datagram sender bytes lastByte =>
      simp only [step, datagram, Option.some.injEq] at stepped
      simp only [meaning] at admissible ⊢
      cases interpreted : interpretDatagram floatText (server.buffer.receive bytes) sender
          lastByte with
      | none =>
          rw [interpreted] at stepped
          cases stepped
          exact .inl ⟨rfl, rfl, rfl⟩
      | some message =>
          rw [interpreted] at stepped
          cases stepped
          exact .inr ⟨_, _, _, rfl, ⟨trivial, rfl⟩, rfl⟩
  | stdin line =>
      cases stepped
      exact .inl ⟨rfl, rfl, rfl⟩
  | received fd bytes =>
      simp only [step, received] at stepped
      simp only [meaning] at admissible ⊢
      split at stepped
      · rename_i ended
        rw [if_pos ended] at admissible ⊢
        obtain ⟨⟨session, sent⟩, disconnected, same⟩ := Option.map_eq_some_iff.mp stepped
        cases same
        exact .inr ⟨_, sent, _, rfl, ⟨admissible rfl, disconnected⟩, rfl⟩
      · rename_i ended
        rw [if_neg ended] at admissible ⊢
        split at stepped
        · rename_i rejected
          rw [if_pos rejected]
          cases stepped
          exact .inl ⟨rfl, rfl, rfl⟩
        · rename_i rejected
          rw [if_neg rejected] at admissible ⊢
          split at stepped
          · rename_i type
            rw [if_pos type] at admissible ⊢
            obtain ⟨⟨session, sent⟩, subscribed, same⟩ := Option.map_eq_some_iff.mp stepped
            cases same
            exact .inr ⟨_, sent, _, rfl, ⟨admissible rfl, subscribed⟩, rfl⟩
          · rename_i type
            rw [if_neg type] at admissible ⊢
            obtain ⟨⟨session, sent⟩, unsubscribed, same⟩ := Option.map_eq_some_iff.mp stepped
            cases same
            exact .inr ⟨_, sent, _, rfl, ⟨admissible rfl, unsubscribed⟩, rfl⟩

/-! ## Lines are strings -/

/-- The texts of floating-point numbers are strings. -/
def FloatText.Whole (floatText : FloatText) : Prop :=
  ∀ negative num exponent, 0 ∉ floatText negative num exponent

/-- A number has no NUL in its text. -/
theorem zero_not_mem_decimal (n : Nat) : 0 ∉ Decimal.text n := Decimal.not_mem_text (by decide)

/-- Dots between texts add no NUL. -/
theorem zero_not_mem_dot_intercalate {texts : List CString} (whole : ∀ text ∈ texts, 0 ∉ text) :
    0 ∉ dot.intercalate texts := by
  induction texts with
  | nil => exact List.not_mem_nil
  | cons first rest ih =>
      rw [List.forall_mem_cons] at whole
      rcases eq_or_ne rest [] with rfl | more
      · simpa using whole.1
      · rw [List.intercalate_cons_of_ne_nil more, List.mem_append, List.mem_append]
        rintro ((inFirst | inDot) | later)
        · exact whole.1 inFirst
        · exact absurd inDot (by decide)
        · exact ih whole.2 later

/-- The text of a sender has no NUL. -/
theorem Sender.zero_not_mem_text (sender : Sender) : 0 ∉ sender.text := by
  have address : 0 ∉ dot.intercalate
      (sender.address.toList.map fun octet => Decimal.text octet.toNat) := by
    refine zero_not_mem_dot_intercalate fun text member => ?_
    obtain ⟨octet, _, rfl⟩ := List.mem_map.mp member
    exact zero_not_mem_decimal _
  rw [Sender.text, List.mem_append, List.mem_append]
  rintro ((inAddress | inColon) | inPort)
  · exact address inAddress
  · exact absurd inColon (by decide)
  · exact zero_not_mem_decimal _ inPort

/-- What is in front of the first NUL has none. -/
theorem zero_not_mem_takeWhile (bytes : List UInt8) :
    0 ∉ bytes.takeWhile fun byte => byte ≠ 0 := by
  intro member
  simpa using List.all_eq_true.mp List.all_takeWhile _ member

/-- A string of the buffer has no NUL. -/
theorem zero_not_mem_string (buffer : ByteBuffer) (offset len : Nat) :
    0 ∉ buffer.string offset len := by
  unfold ByteBuffer.string
  exact zero_not_mem_takeWhile _

/-- The text of a payload has no NUL. -/
theorem zero_not_mem_payload {floatText : FloatText} (whole : floatText.Whole)
    (buffer : ByteBuffer) : 0 ∉ (decodePayload floatText buffer).2 := by
  have digit (n : Nat) : (0 : UInt8) ≠ Decimal.digit (n % 10) := by
    intro same
    have value := Decimal.toNat_digit (Nat.mod_lt n (by decide))
    rw [← same, UInt8.toNat_zero] at value
    omega
  unfold decodePayload
  split_ifs
  · simp only [intPayload, Decimal.intText]
    split_ifs <;> simp [zero_not_mem_decimal]
  · simp [shortRealPayload, zero_not_mem_decimal, digit]
  · exact whole _ _ _
  · dsimp only
    exact zero_not_mem_string buffer 51 bufLen

/-- The name of a type has no NUL. -/
theorem zero_not_mem_type (floatText : FloatText) (buffer : ByteBuffer) :
    0 ∉ (decodePayload floatText buffer).1 := by
  have types : 0 ∉ intType ∧ 0 ∉ shortRealType ∧ 0 ∉ floatType ∧ 0 ∉ stringType := by decide
  unfold decodePayload
  split_ifs
  · exact types.1
  · exact types.2.1
  · exact types.2.2.1
  · exact types.2.2.2

/-- A copied topic has no NUL. -/
theorem zero_not_mem_copiedTopic (buffer : ByteBuffer) (lastByte : UInt8) {type : CString}
    (whole : 0 ∉ type) : 0 ∉ copiedTopic buffer lastByte type := by
  have copied := zero_not_mem_takeWhile (buffer.contents 50)
  simp only [copiedTopic]
  split_ifs with full
  · rw [List.mem_append, List.mem_cons]
    rintro (inTopic | last | inType)
    · exact copied inTopic
    · exact full.2 last.symm
    · exact whole inType
  · exact copied

/-- What the server makes of a datagram is a string. -/
theorem zero_not_mem_line {floatText : FloatText} (whole : floatText.Whole) {buffer : ByteBuffer}
    {sender : Sender} {lastByte : UInt8} {message : UdpMessage} {line : CString}
    (interpreted : interpretDatagram floatText buffer sender lastByte = some (message, line)) :
    0 ∉ line := by
  rw [interpretDatagram] at interpreted
  split at interpreted
  case isFalse => cases interpreted
  case isTrue valid =>
    cases interpreted
    have address := sender.zero_not_mem_text
    have type := zero_not_mem_type floatText buffer
    have topic := zero_not_mem_copiedTopic buffer lastByte type
    have payload := zero_not_mem_payload whole buffer
    have between : 0 ∉ separator := by decide
    have last : 0 ∉ newline := by decide
    simp only [messageLine, decodeUdpMessage, List.mem_append, not_or]
    exact ⟨⟨⟨⟨⟨⟨⟨address, between⟩, topic⟩, between⟩, type⟩, between⟩, payload⟩, last⟩

/-- Events after which every socket belongs to whom it belonged before. -/
def ServerEvent.Quiet : ServerEvent → Prop
  | .connection _ _ => False
  | .datagram _ _ _ => True
  | .stdin _ => True
  | .received _ bytes => bytes ≠ []

namespace ServerState

variable {floatText : FloatText} {server after : ServerState} {event : ServerEvent}
  {outputs : List Transmission}

/-- A line that is published has no NUL. -/
theorem published_whole (whole : floatText.Whole) {topic : CString} {text : CString}
    (means : server.meaning floatText event = some (.publish topic text)) : 0 ∉ text := by
  cases event with
  | connection newsockfd bytes => cases means
  | datagram sender bytes lastByte =>
      obtain ⟨⟨message, line⟩, interpreted, same⟩ := Option.map_eq_some_iff.mp means
      cases same
      exact zero_not_mem_line whole interpreted
  | stdin line => cases means
  | received fd bytes =>
      simp only [meaning] at means
      split_ifs at means <;> cases means

/-- What is sent to an owned socket is a string, and so is what stays pending. -/
theorem step_whole (whole : floatText.Whole) (clean : server.session.Clean)
    (pending : ∀ id, ∀ text ∈ server.session.pendingOf id, 0 ∉ text)
    (admitted : server.Admissible event)
    (stepped : server.step floatText event = some (after, outputs)) :
    after.session.Clean ∧ (∀ id, ∀ text ∈ after.session.pendingOf id, 0 ∉ text) ∧
      ∀ transmission ∈ outputs, ∀ id, after.session.ownerOf transmission.fd = some id →
        0 ∉ transmission.bytes := by
  rcases step_cases admitted stepped with
    ⟨-, same, rfl⟩ | ⟨meant, sent, buffer, means, genuine, rfl⟩
  · rw [same]
    exact ⟨clean, pending, fun _ member => by cases member⟩
  · have texts (id : CString) := Session.texts_keep (fun text => 0 ∉ text) genuine clean id
      (pending id) fun topic text same => published_whole whole (means.trans (congrArg some same))
    refine ⟨Session.clean_preserved _ genuine clean, fun id => (texts id).2, ?_⟩
    intro transmission member id owned
    obtain ⟨output, out, rfl⟩ := List.mem_map.mp member
    cases output with
    | send fd text => exact (texts id).1 text (Session.mem_textsTo out owned)
    | refuse fd =>
        have unowned := Session.refused_unowned genuine clean.consistent out
        rw [transmission, unowned] at owned
        cases owned

/-- The owner of a socket after a round of the server. -/
theorem step_owner (consistent : server.session.Consistent) (admitted : server.Admissible event)
    (stepped : server.step floatText event = some (after, outputs)) (fd : Fd) :
    after.session.ownerOf fd = (server.meaning floatText event).elim (server.session.ownerOf fd)
      (server.session.ownerAfter fd) := by
  rcases step_cases admitted stepped with ⟨means, same, _⟩ | ⟨meant, sent, _, means, genuine, _⟩
  · rw [means, same]
    rfl
  · rw [means]
    exact (consistent.effect genuine).ownerOf consistent fd

/-- The open descriptors after a round of the server. -/
theorem step_open (consistent : server.session.Consistent) (admitted : server.Admissible event)
    (stepped : server.step floatText event = some (after, outputs)) :
    after.session.openFds = (server.meaning floatText event).elim server.session.openFds
      server.session.openAfter := by
  rcases step_cases admitted stepped with ⟨means, same, _⟩ | ⟨meant, sent, _, means, genuine, _⟩
  · rw [means, same]
    rfl
  · rw [means]
    exact (consistent.effect genuine).openFds consistent

/-- A quiet event changes no owner and opens or closes no descriptor. -/
theorem meaning_quiet (quiet : event.Quiet) (fd : Fd) :
    (server.meaning floatText event).elim (server.session.ownerOf fd)
        (server.session.ownerAfter fd) = server.session.ownerOf fd ∧
      (server.meaning floatText event).elim server.session.openFds server.session.openAfter =
        server.session.openFds := by
  cases event with
  | connection newsockfd bytes => exact quiet.elim
  | datagram sender bytes lastByte =>
      simp only [meaning]
      cases interpretDatagram floatText (server.buffer.receive bytes) sender lastByte with
      | none => exact ⟨rfl, rfl⟩
      | some interpreted => exact ⟨rfl, rfl⟩
  | stdin line => exact ⟨rfl, rfl⟩
  | received fd bytes =>
      simp only [meaning, if_neg (show bytes ≠ [] from quiet)]
      split_ifs
      · exact ⟨rfl, rfl⟩
      · exact ⟨rfl, rfl⟩
      · exact ⟨rfl, rfl⟩

end ServerState

end CommunicationProtocols.Server
