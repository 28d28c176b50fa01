import CommunicationProtocols.Server.SessionSafety

/-!
# Subscriptions as a finite map

A client's topic list stands for a finite map from topics to flags. Every command
line of the client updates that map at one topic; nothing else in a run of the
server touches it, neither the commands of other clients nor connections and
datagrams, although all of them share one message structure and one buffer.
-/

namespace CommunicationProtocols.Server

open Library

variable {floatText : FloatText} {Text : Type*}

/-! ## The map -/

/-- The flag of every topic a list subscribes to. -/
def subscriptions (topics : List Topic) : CString → Option Bool := fun name =>
  (KeyedList.find Topic.name name topics).map Topic.sf

/-- A client is subscribed exactly if the map has the topic. -/
theorem checkSubscription_iff_isSome {client : Client CString} {name : CString} :
    checkSubscription client name = true ↔ (subscriptions client.topics name).isSome := by
  simp [checkSubscription, subscriptions]

/-- Store and forward is on exactly if the map says so. -/
theorem checkSfActive_iff_flag {client : Client CString} {name : CString} :
    checkSfActive client name = true ↔ subscriptions client.topics name = some true := by
  unfold checkSfActive subscriptions
  cases KeyedList.find Topic.name name client.topics <;> simp

namespace CommandLine

/-- The flag a line gives its topic. -/
def flag : CommandLine → Option Bool
  | .subscribe _ _ _ _ sf => some sf
  | .unsubscribe _ _ _ => none

/-- A line updates the map at its topic. -/
theorem subscriptions_change (line : CommandLine) {topics : List Topic}
    (distinct : KeyedList.Distinct Topic.name topics) :
    subscriptions (line.change topics) =
      Function.update (subscriptions topics) line.topic line.flag := by
  ext1 name
  cases line with
  | subscribe spaces topic valid spaces' sf =>
      simp only [subscriptions, change, addTopic, KeyedList.find_put, Function.update_apply,
        CommandLine.topic, flag, eq_comm (a := topic)]
      split <;> rfl
  | unsubscribe spaces topic valid =>
      simp only [subscriptions, change, removeTopic, KeyedList.find_remove distinct,
        Function.update_apply, CommandLine.topic, flag]
      split <;> rfl

/-- A command keeps the topics of a client distinct. -/
theorem distinct_change (line : CommandLine) {topics : List Topic}
    (distinct : KeyedList.Distinct Topic.name topics) :
    KeyedList.Distinct Topic.name (line.change topics) := by
  cases line with
  | subscribe => exact KeyedList.distinct_put _ distinct
  | unsubscribe => exact KeyedList.distinct_remove _ distinct

/-- The bytes of a line determine what it does. -/
theorem topic_flag_of_bytes {line line' : CommandLine} (same : line.bytes = line'.bytes) :
    line.topic = line'.topic ∧ line.flag = line'.flag := by
  have tokens := congrArg (Tokens.tokens blank) same
  rw [line.tokens_bytes, line'.tokens_bytes] at tokens
  cases line with
  | subscribe _ topic _ _ sf =>
      cases line' with
      | subscribe _ topic' _ _ sf' =>
          simp only [List.cons.injEq, true_and, and_true] at tokens
          refine ⟨tokens.1, congrArg some ?_⟩
          cases sf <;> cases sf' <;> first | rfl | exact absurd tokens.2 (by decide)
      | unsubscribe => simp at tokens
  | unsubscribe _ topic _ =>
      cases line' with
      | subscribe => simp at tokens
      | unsubscribe _ topic' _ =>
          simp only [List.cons.injEq, true_and, and_true] at tokens
          exact ⟨List.append_cancel_right tokens, rfl⟩

/-- A command has no NUL. -/
theorem zero_not_mem_bytes (line : CommandLine) : 0 ∉ line.bytes := by
  have blanks (count : Nat) : 0 ∉ List.replicate count blank := fun member =>
    absurd (List.eq_of_mem_replicate member) (by decide)
  cases line with
  | subscribe spaces topic valid spaces' sf =>
      have last : 0 ∉ if sf then oneLine else zeroLine := by cases sf <;> decide
      simp only [bytes, List.mem_append, not_or]
      exact ⟨⟨⟨⟨by decide, blanks _⟩, valid.2.2.1⟩, blanks _⟩, last⟩
  | unsubscribe spaces topic valid =>
      simp only [bytes, List.mem_append, not_or]
      exact ⟨⟨⟨by decide, blanks _⟩, valid.2.2.1⟩, by decide⟩

/-- A command is not empty. -/
theorem bytes_ne_nil (line : CommandLine) : line.bytes ≠ [] := by
  cases line <;> simp [bytes, unsubscribeWord, subscribeWord]

/-- The event of the bookkeeping that a line on a socket stands for. -/
def event (fd : Fd) : CommandLine → Event CString
  | .subscribe _ topic _ _ sf => .subscribe fd topic sf
  | .unsubscribe _ topic _ => .unsubscribe fd topic

/-- A command changes the topics of the client on the socket. -/
theorem step_event {session : Session CString} {fd : Fd} {ptr : ClientPtr}
    (found : KeyedList.find Prod.fst fd session.onlineClients = some (fd, ptr))
    (line : CommandLine) :
    (sessionMachine CString).step session (line.event fd) =
      some (session.setTopics ptr line.change, []) := by
  cases line with
  | subscribe => exact Session.changeTopics_eq found _
  | unsubscribe => exact Session.changeTopics_eq found _

end CommandLine

/-! ## Steps -/

/-- A line that arrives whole means what it says, whatever was received before. -/
theorem ServerState.meaning_line (server : ServerState) (fd : Fd) (line : CommandLine)
    (fits : line.bytes.length < bufLen) :
    server.meaning floatText (.received fd line.bytes) = some (line.event fd) := by
  have received := ByteBuffer.string_receive_clear server.buffer (Nat.le_of_lt fits)
    line.zero_not_mem_bytes
  obtain ⟨accepted, message⟩ := line.decode_bytes server.sMessage
  simp only [meaning, if_neg line.bytes_ne_nil, received, accepted, message]
  cases line with
  | subscribe => rfl
  | unsubscribe =>
      simp only [CommandLine.message, chopTopic_newline]
      rfl

/-- The client at `ptr` sends a command. -/
def SendsCommand (ptr : ClientPtr)
    (transition : Transition ServerState ServerEvent Transmission) (bytes : List UInt8) : Prop :=
  bytes ≠ [] ∧ ∃ fd, transition.event = .received fd bytes ∧
    KeyedList.find Prod.fst fd transition.before.session.onlineClients = some (fd, ptr)

/-- What changes topics comes from bytes on a client's socket. -/
theorem ServerState.received_of_meaning {server : ServerState} {event : ServerEvent}
    {meant : Event CString} {fd : Fd} (means : server.meaning floatText event = some meant)
    (command : (∃ topic sf, meant = .subscribe fd topic sf) ∨ ∃ topic, meant = .unsubscribe fd topic) :
    ∃ bytes, bytes ≠ [] ∧ event = .received fd bytes := by
  cases event with
  | connection =>
      cases means
      simp at command
  | datagram =>
      obtain ⟨_, _, rfl⟩ := Option.map_eq_some_iff.mp means
      simp at command
  | stdin => cases means
  | received socket bytes =>
      simp only [meaning] at means
      split at means
      case isTrue =>
        cases means
        simp at command
      case isFalse nonempty =>
        refine ⟨bytes, nonempty, ?_⟩
        split at means
        · cases means
        · split at means
          · cases means
            obtain ⟨_, _, same⟩ | ⟨_, same⟩ := command <;> cases same
            rfl
          · cases means
            obtain ⟨_, _, same⟩ | ⟨_, same⟩ := command <;> cases same
            rfl

namespace Session

/-- Enrolling leaves all topics. -/
theorem enroll_topics (session : Session Text) (id : CString) (ptr : ClientPtr) :
    ((session.enroll id).1.clients ptr).topics = (session.clients ptr).topics := by
  unfold enroll
  cases session.getClient id with
  | some _ => rfl
  | none =>
      by_cases same : ptr = session.allocated
      · simp [register, same]
      · simp [register, modify_clients_of_ne session _ same]

/-- Attaching leaves all topics. -/
theorem attach_topics (session : Session Text) (fd : Fd) (ptr other : ClientPtr) :
    ((session.attach fd ptr).clients other).topics = (session.clients other).topics := by
  by_cases same : other = ptr
  · rw [same, attach_clients_same]
  · rw [attach_clients_of_ne session fd same]

/-- Detaching leaves all topics. -/
theorem detach_topics (session : Session Text) (fd : Fd) (ptr other : ClientPtr) :
    ((session.detach fd ptr).clients other).topics = (session.clients other).topics := by
  by_cases same : other = ptr
  · rw [same, detach_clients_same]
  · rw [detach_clients_of_ne session fd same]

/-- Publishing leaves all topics. -/
theorem Consistent.publish_topics {session : Session Text} (consistent : session.Consistent)
    (topic : CString) (text : Text) (ptr : ClientPtr) :
    ((session.publish topic text).1.clients ptr).topics = (session.clients ptr).topics := by
  rw [consistent.publish_eq]
  dsimp only
  split
  · exact storeText_topics topic text _
  · rfl

/-- The topics of a client change only on a command from its own socket. -/
theorem Effect.topics {session after : Session Text} {event : Event Text}
    {outputs : List (Output Text)} (effect : session.Effect event after outputs)
    (consistent : session.Consistent) (ptr : ClientPtr) :
    (after.clients ptr).topics = (session.clients ptr).topics ∨
      ∃ fd, (fd, ptr) ∈ session.onlineClients ∧
        ((∃ topic sf, event = .subscribe fd topic sf) ∨ ∃ topic, event = .unsubscribe fd topic) := by
  cases effect with
  | refused taken => exact .inl rfl
  | @accepted fd id closed valid unique =>
      exact .inl ((attach_topics _ fd _ ptr).trans (enroll_topics session id ptr))
  | @gone fd other reported online => exact .inl (detach_topics session fd other ptr)
  | @subscribed fd other topic sf online =>
      by_cases same : ptr = other
      · exact .inr ⟨fd, same ▸ online, .inl ⟨topic, sf, rfl⟩⟩
      · exact .inl (by rw [setTopics_clients_of_ne session _ same])
  | @unsubscribed fd other topic online =>
      by_cases same : ptr = other
      · exact .inr ⟨fd, same ▸ online, .inr ⟨topic, rfl⟩⟩
      · exact .inl (by rw [setTopics_clients_of_ne session _ same])
  | published => exact .inl (consistent.publish_topics _ _ ptr)

end Session

/-- A command line of the client changes its list the way the line says. -/
theorem SendsCommand.topics {ptr : ClientPtr}
    {transition : Transition ServerState ServerEvent Transmission} {line : CommandLine}
    (sends : SendsCommand ptr transition line.bytes)
    (genuine : (serverMachine floatText).Genuine transition)
    (consistent : transition.before.session.Consistent) :
    (transition.after.session.clients ptr).topics =
      line.change (transition.before.session.clients ptr).topics := by
  obtain ⟨_, fd, event, found⟩ := sends
  have admitted : transition.before.Admissible (.received fd line.bytes) :=
    event ▸ genuine.admitted
  have means : transition.before.meaning floatText transition.event = some (line.event fd) :=
    event ▸ ServerState.meaning_line transition.before fd line admitted.2
  obtain ⟨silent, _⟩ | ⟨meant, sent, means', sessionGenuine⟩ :=
    ServerState.silent_or_meant genuine consistent
  · rw [means] at silent
    cases silent
  · obtain rfl : line.event fd = meant := Option.some.inj (means.symm.trans means')
    have changed : transition.before.session.setTopics ptr line.change =
        transition.after.session :=
      congrArg Prod.fst
        (Option.some.inj ((line.step_event found).symm.trans sessionGenuine.stepped))
    rw [← changed, Session.setTopics_clients_same]

/-- Nothing but a command of the client changes its list. -/
theorem topics_of_not_sends {ptr : ClientPtr}
    {transition : Transition ServerState ServerEvent Transmission}
    (silent : ∀ bytes, ¬ SendsCommand ptr transition bytes)
    (genuine : (serverMachine floatText).Genuine transition)
    (consistent : transition.before.session.Consistent) :
    (transition.after.session.clients ptr).topics =
      (transition.before.session.clients ptr).topics := by
  obtain ⟨_, same⟩ | ⟨meant, sent, means, sessionGenuine⟩ :=
    ServerState.silent_or_meant genuine consistent
  · rw [same]
  · have effect := Session.Consistent.effect consistent sessionGenuine
    obtain kept | ⟨fd, online, command⟩ := effect.topics consistent ptr
    · exact kept
    · have found := KeyedList.find_of_mem consistent.socketsDistinct online
      obtain ⟨bytes, nonempty, event⟩ := ServerState.received_of_meaning means command
      exact absurd ⟨nonempty, fd, event, found⟩ (silent bytes)

/-! ## Runs -/

/-- The last command of the client at `ptr` that names a topic. -/
def LastNaming (ptr : ClientPtr) (name : CString)
    (trace : List (Transition ServerState ServerEvent Transmission)) (line : CommandLine) : Prop :=
  ∃ earlier transition later, trace = earlier ++ transition :: later ∧
    SendsCommand ptr transition line.bytes ∧ line.topic = name ∧
    ∀ transition' ∈ later, ∀ line' : CommandLine,
      SendsCommand ptr transition' line'.bytes → line'.topic ≠ name

/-- The last command on a topic is the one just sent, or the last one before if that was on
another. -/
theorem lastNaming_concat_iff {ptr : ClientPtr} {name : CString}
    {trace : List (Transition ServerState ServerEvent Transmission)}
    {transition : Transition ServerState ServerEvent Transmission} {line : CommandLine} :
    LastNaming ptr name (trace ++ [transition]) line ↔
      (SendsCommand ptr transition line.bytes ∧ line.topic = name) ∨
        (LastNaming ptr name trace line ∧ ∀ line' : CommandLine,
          SendsCommand ptr transition line'.bytes → line'.topic ≠ name) := by
  constructor
  · rintro ⟨earlier, found, later, split, sends, named, last⟩
    obtain rfl | ⟨init, final, rfl⟩ := List.eq_nil_or_concat later
    · obtain ⟨_, same⟩ := List.append_inj' split rfl
      cases same
      exact .inl ⟨sends, named⟩
    · rw [List.concat_eq_append, ← List.cons_append, ← List.append_assoc] at split
      obtain ⟨rfl, same⟩ := List.append_inj' split rfl
      cases same
      refine .inr ⟨⟨earlier, found, init, rfl, sends, named, ?_⟩, ?_⟩
      · intro transition' member
        exact last transition' (by simp [member])
      · exact last transition (by simp)
  · rintro (⟨sends, named⟩ | ⟨⟨earlier, found, later, rfl, sends, named, last⟩, silent⟩)
    · exact ⟨trace, transition, [], rfl, sends, named, by simp⟩
    · refine ⟨earlier, found, later ++ [transition], by simp, sends, named, ?_⟩
      intro transition' member
      obtain before | now := List.mem_append.mp member
      · exact last transition' before
      · rw [List.mem_singleton.mp now]
        exact silent

/-- After a run the list of a client stands for the map its own commands have built. -/
structure Tracks (ptr : ClientPtr) (topics : List Topic)
    (trace : List (Transition ServerState ServerEvent Transmission)) : Prop where
  distinct : KeyedList.Distinct Topic.name topics
  flags : ∀ name flag, subscriptions topics name = some flag ↔
    ∃ line, LastNaming ptr name trace line ∧ line.flag = some flag

/-- A command of the client keeps its list in step with its commands. -/
theorem Tracks.command {ptr : ClientPtr} {topics : List Topic}
    {trace : List (Transition ServerState ServerEvent Transmission)}
    {transition : Transition ServerState ServerEvent Transmission} {line : CommandLine}
    (tracks : Tracks ptr topics trace) (sends : SendsCommand ptr transition line.bytes) :
    Tracks ptr (line.change topics) (trace ++ [transition]) where
  distinct := line.distinct_change tracks.distinct
  flags name flag := by
    rw [line.subscriptions_change tracks.distinct]
    -- Lines with the same bytes name the same topic and carry the same flag.
    have only (line' : CommandLine) (sends' : SendsCommand ptr transition line'.bytes) :
        line.topic = line'.topic ∧ line.flag = line'.flag := by
      obtain ⟨_, fd, event, _⟩ := sends
      obtain ⟨_, fd', event', _⟩ := sends'
      have same : ServerEvent.received fd line.bytes = .received fd' line'.bytes :=
        event.symm.trans event'
      exact CommandLine.topic_flag_of_bytes (ServerEvent.received.inj same).2
    by_cases named : name = line.topic
    · subst named
      rw [Function.update_self]
      constructor
      · intro carried
        exact ⟨line, lastNaming_concat_iff.mpr (.inl ⟨sends, rfl⟩), carried⟩
      · rintro ⟨line', last, carried⟩
        obtain ⟨sends', _⟩ | ⟨_, silent⟩ := lastNaming_concat_iff.mp last
        · rw [(only line' sends').2, carried]
        · exact absurd rfl (silent line sends)
    · rw [Function.update_of_ne named, tracks.flags]
      have other (line' : CommandLine) (sends' : SendsCommand ptr transition line'.bytes) :
          line'.topic ≠ name := (only line' sends').1 ▸ Ne.symm named
      constructor
      · rintro ⟨line', last, carried⟩
        exact ⟨line', lastNaming_concat_iff.mpr (.inr ⟨last, other⟩), carried⟩
      · rintro ⟨line', last, carried⟩
        obtain ⟨sends', now⟩ | ⟨before, _⟩ := lastNaming_concat_iff.mp last
        · exact absurd now (other line' sends')
        · exact ⟨line', before, carried⟩

/-- A step that is no command of the client needs no change of its list. -/
theorem Tracks.silent {ptr : ClientPtr} {topics : List Topic}
    {trace : List (Transition ServerState ServerEvent Transmission)}
    {transition : Transition ServerState ServerEvent Transmission}
    (tracks : Tracks ptr topics trace) (silent : ∀ bytes, ¬ SendsCommand ptr transition bytes) :
    Tracks ptr topics (trace ++ [transition]) where
  distinct := tracks.distinct
  flags name flag := by
    rw [tracks.flags]
    constructor
    · rintro ⟨line, last, carried⟩
      exact ⟨line, lastNaming_concat_iff.mpr (.inr ⟨last, fun line' sends =>
        absurd sends (silent line'.bytes)⟩), carried⟩
    · rintro ⟨line, last, carried⟩
      obtain ⟨sends, _⟩ | ⟨before, _⟩ := lastNaming_concat_iff.mp last
      · exact absurd sends (silent line.bytes)
      · exact ⟨line, before, carried⟩

/-- Every command of the client is a well-formed line. -/
def SendsLines (ptr : ClientPtr)
    (trace : List (Transition ServerState ServerEvent Transmission)) : Prop :=
  ∀ transition ∈ trace, ∀ bytes, SendsCommand ptr transition bytes →
    ∃ line : CommandLine, bytes = line.bytes

/-- The list of a client that started empty stands for its commands wherever a run ends. -/
theorem tracks_of_run {ptr : ClientPtr} {start final : ServerState}
    {trace : List (Transition ServerState ServerEvent Transmission)}
    (consistent : start.session.Consistent) (empty : (start.session.clients ptr).topics = [])
    (run : (serverMachine floatText).Run start trace final) (lines : SendsLines ptr trace) :
    Tracks ptr (final.session.clients ptr).topics trace := by
  induction run with
  | refl =>
      rw [empty]
      exact ⟨List.nodup_nil, fun name flag => by simp [subscriptions, KeyedList.find, LastNaming]⟩
  | @step trace server event outputs next prior admitted stepped ih =>
      have earlier := ih fun transition member => lines transition (List.mem_append_left _ member)
      have agrees := ServerState.consistent_of_run consistent prior
      have genuine : (serverMachine floatText).Genuine ⟨server, event, outputs, next⟩ :=
        ⟨admitted, stepped⟩
      by_cases sends : ∃ bytes, SendsCommand ptr ⟨server, event, outputs, next⟩ bytes
      · obtain ⟨bytes, sends⟩ := sends
        obtain ⟨line, rfl⟩ := lines _ (List.mem_append_right _ List.mem_cons_self) bytes sends
        have changed := sends.topics genuine agrees
        dsimp only at changed
        rw [changed]
        exact earlier.command sends
      · have silent : ∀ bytes, ¬ SendsCommand ptr ⟨server, event, outputs, next⟩ bytes :=
          not_exists.mp sends
        have kept := topics_of_not_sends silent genuine agrees
        dsimp only at kept
        rw [kept]
        exact earlier.silent silent

/-- `"subscribe t 1\n"`. -/
def sampleLine : CommandLine := .subscribe 0 [116] (by decide) 0 true

theorem connectedServer_reached :
    ∃ trace, (serverMachine fun _ _ _ => []).Run sampleServer trace connectedServer :=
  ⟨_, Machine.run_single sampleConnection_admitted sampleConnection_steps⟩

theorem connectedServer_empty : (connectedServer.session.clients 0).topics = [] := by
  decide +kernel

/-- The lines of `A` on 5 and `B` on 6: `A` turns the flag of `t` off and leaves `u`, and
`B` takes `t` and leaves it in between. -/
def sampleLines : List (Fd × CommandLine) :=
  [(5, sampleLine), (6, .subscribe 0 [116] (by decide) 0 false),
    (5, .subscribe 0 [117] (by decide) 2 true), (6, .unsubscribe 0 [116] (by decide)),
    (5, .subscribe 1 [116] (by decide) 0 false), (5, .unsubscribe 0 [117] (by decide))]

/-- `B` connects on 6, and the lines arrive. -/
def sampleCommands : List ServerEvent :=
  .connection 6 [66, 0] :: sampleLines.map fun line => .received line.1 line.2.bytes

theorem sampleCommands_run :
    ((serverMachine fun _ _ _ => []).exec connectedServer sampleCommands).isSome := by
  decide +kernel

/-- The transitions in which the commands are handled. -/
def sampleTrace : List (Transition ServerState ServerEvent Transmission) :=
  (((serverMachine fun _ _ _ => []).exec connectedServer sampleCommands).get
    sampleCommands_run).1

/-- The server behind the commands. -/
def commandedServer : ServerState :=
  (((serverMachine fun _ _ _ => []).exec connectedServer sampleCommands).get
    sampleCommands_run).2

theorem sampleTrace_lines : SendsLines 0 sampleTrace := by
  rintro transition member bytes ⟨_, fd, received, _⟩
  have offered : transition.event ∈ sampleCommands := by
    have events := Machine.event_exec sampleCommands_run
    rw [← sampleTrace] at events
    rw [← events]
    exact List.mem_map_of_mem member
  rw [received] at offered
  rcases List.mem_cons.mp offered with other | command
  · cases other
  · obtain ⟨line, _, same⟩ := List.mem_map.mp command
    exact ⟨line.2, (ServerEvent.received.inj same).2.symm⟩

theorem sampleTrace_run :
    (serverMachine fun _ _ _ => []).Run connectedServer sampleTrace commandedServer := by
  rw [sampleTrace, commandedServer]
  exact Machine.run_exec sampleCommands_run

end CommunicationProtocols.Server
