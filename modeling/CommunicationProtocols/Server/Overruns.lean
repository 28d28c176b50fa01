import CommunicationProtocols.Server.SessionSafety
import CommunicationProtocols.Server.TextSizes

/-!
# Texts that overrun their arrays

The server copies the topic of a command into an array of 51 bytes, and prints the
texts of a datagram into blocks and into its buffer, all without a check. What is in
memory behind such an array is then overwritten, and nothing the source says holds any
more. Sessions are safe in the runs in which every text fits, and in those only can
that be said.
-/

namespace CommunicationProtocols.Server

open Library

variable {floatText : FloatText}

/-- The size of `topic` in `server_message`, and of `name` in `topic_list_in_client`. -/
def topicSize : Nat := 51

/-- A command copies a topic that fits: its second token, or the topic the message
holds already if it has none. -/
def CommandFits (held : CString) : List CString → Prop
  | [] => held.length < topicSize
  | [word] => word = subscribeWord ∨ word = unsubscribeWord → held.length < topicSize
  | word :: topic :: _ =>
      word = subscribeWord ∨ word = unsubscribeWord → topic.length < topicSize

instance (held : CString) : (tokens : List CString) → Decidable (CommandFits held tokens)
  | [] => inferInstanceAs (Decidable (held.length < topicSize))
  | [word] => inferInstanceAs (Decidable
      (word = subscribeWord ∨ word = unsubscribeWord → held.length < topicSize))
  | word :: topic :: _ => inferInstanceAs (Decidable
      (word = subscribeWord ∨ word = unsubscribeWord → topic.length < topicSize))

instance (buffer : ByteBuffer) (sender : Sender) (lastByte : UInt8) :
    Decidable (TextsFit floatText buffer sender lastByte) :=
  decidable_of_iff
    ((decodeUdpMessage floatText buffer lastByte).payload.length + 1 ≤ payloadBlock buffer ∧
      (messageLine sender (decodeUdpMessage floatText buffer lastByte)).length + 1 ≤ bufLen)
    ⟨fun fit => ⟨fit.1, fit.2⟩, fun fit => ⟨fit.payload, fit.line⟩⟩

/-- No array is overrun when the server handles the event. -/
def ServerState.Fits (floatText : FloatText) (server : ServerState) : ServerEvent → Prop
  | .connection _ _ => True
  | .datagram sender bytes lastByte =>
      isValidUdpMessage (server.buffer.receive bytes) = true →
        TextsFit floatText (server.buffer.receive bytes) sender lastByte
  | .stdin _ => True
  | .received _ bytes => bytes ≠ [] → CommandFits server.sMessage.topic
      (Tokens.tokens blank (((server.buffer.clear bufLen).receive bytes).string 0 bufLen))

instance (server : ServerState) : (event : ServerEvent) → Decidable (server.Fits floatText event)
  | .connection _ _ => inferInstanceAs (Decidable True)
  | .datagram sender bytes lastByte => inferInstanceAs (Decidable
      (isValidUdpMessage (server.buffer.receive bytes) = true →
        TextsFit floatText (server.buffer.receive bytes) sender lastByte))
  | .stdin _ => inferInstanceAs (Decidable True)
  | .received _ bytes => inferInstanceAs (Decidable (bytes ≠ [] → CommandFits _ _))

/-! ## One condition for both copies of a topic -/

/-- Only the second token is copied. -/
theorem decodeLoop_topic {message : ServerMessage} {nrParam : Nat} (later : 3 ≤ nrParam)
    (tokens : List CString) : (decodeLoop message nrParam tokens).message.topic = message.topic := by
  induction tokens generalizing message nrParam with
  | nil => rfl
  | cons token rest ih =>
      rw [decodeLoop, if_neg (by omega), if_neg (by omega)]
      split
      case isTrue =>
        split
        case isTrue => rfl
        case isFalse =>
          dsimp only
          split
          case isTrue => rfl
          case isFalse => rw [ih (by omega)]
      case isFalse => rfl

/-- The topic of an accepted command that fits also fits the name in a client's list. -/
theorem topic_fits_of_accepted {held : ServerMessage} {string : CString}
    (fits : CommandFits held.topic (Tokens.tokens blank string))
    (accepted : (decodeMessage held string).accepted = true) :
    (decodeMessage held string).message.topic.length < topicSize := by
  have same : (decodeMessage held string).message =
      (decodeLoop held 1 (Tokens.tokens blank string)).message := by
    rw [decodeMessage]
    split <;> rfl
  have looped : (decodeLoop held 1 (Tokens.tokens blank string)).accepted = true := by
    rw [decodeMessage] at accepted
    split at accepted
    case isTrue => cases accepted
    case isFalse => exact accepted
  rw [same]
  generalize Tokens.tokens blank string = tokens at fits looped
  match tokens, fits, looped with
  | [], fits, _ => exact fits
  | word :: rest, fits, looped =>
      rw [decodeLoop, if_pos rfl] at looped ⊢
      by_cases known : word = subscribeWord ∨ word = unsubscribeWord
      · rw [if_neg (by tauto)] at looped ⊢
        cases rest with
        | nil => exact fits known
        | cons topic more =>
            rw [decodeLoop, if_neg (by decide), if_pos rfl, decodeLoop_topic (by decide)]
            exact fits known
      · rw [if_pos (by tauto)] at looped
        cases looped

/-! ## Overruns -/

/-- An event, together with the state in which memory leaves the server if an array is
overrun. -/
abbrev MemoryEvent := Disturbed ServerState ServerEvent

/-- The server with arrays of the sizes they have: a step that overruns one has no meaning
in C. -/
abbrev memoryMachine (floatText : FloatText) : Machine ServerState MemoryEvent Transmission :=
  (serverMachine floatText).undefinedUnless (ServerState.Fits floatText)

/-- A transition in which no array is overrun. -/
def FittingTransition (floatText : FloatText)
    (transition : Transition ServerState MemoryEvent Transmission) : Prop :=
  transition.before.Fits floatText transition.event.event

instance : DecidablePred (FittingTransition floatText) := fun transition =>
  inferInstanceAs (Decidable (transition.before.Fits floatText transition.event.event))

/-- `A` subscribes, a second `A` is refused, `A` goes, misses a text and comes back. -/
def sessionEvents : List MemoryEvent :=
  [.connection 5 [65, 0], .received 5 (ascii "subscribe t 1\n"), .connection 6 [66, 0],
    .connection 7 [65, 0], .received 5 [],
    .datagram sampleSender (116 :: List.replicate 49 0 ++ 3 :: ascii "hi" ++ [0]) 0,
    .connection 5 [65, 0]].map fun event => ⟨event, sampleServer⟩

theorem sessionEvents_run :
    ((memoryMachine exactFloatText).exec sampleServer sessionEvents).isSome := by
  decide +kernel

/-- The server when `A` has come back. -/
def returnedServer : ServerState :=
  (((memoryMachine exactFloatText).exec sampleServer sessionEvents).get sessionEvents_run).2

/-- `A` names a topic of sixty bytes. -/
def overlongCommand : List UInt8 :=
  ascii "subscribe " ++ List.replicate 60 97 ++ ascii " 1\n"

/-- The write goes on behind the array, where `main` has its other variables; here the
list of all clients is lost. -/
def overrunServer : ServerState :=
  { connectedServer with session := { connectedServer.session with allClients := [] } }

def overrunTrace : List (Transition ServerState MemoryEvent Transmission) :=
  [⟨sampleServer, ⟨sampleConnection, sampleServer⟩, [], connectedServer⟩,
    ⟨connectedServer, ⟨.received 5 overlongCommand, overrunServer⟩, [], overrunServer⟩]

theorem overrunTrace_run :
    (memoryMachine fun _ _ _ => []).Run sampleServer overrunTrace overrunServer := by
  have stepped := (Option.some_get sampleConnection_steps).symm
  have server : (((serverMachine fun _ _ _ => []).step sampleServer sampleConnection).get
      sampleConnection_steps).1 = connectedServer := by
    rw [connectedServer]
  have silent : (((serverMachine fun _ _ _ => []).step sampleServer sampleConnection).get
      sampleConnection_steps).2 = [] := by
    decide +kernel
  rw [← Prod.eta (((serverMachine fun _ _ _ => []).step sampleServer sampleConnection).get
    sampleConnection_steps), server, silent] at stepped
  have fits : sampleServer.Fits (fun _ _ _ => []) sampleConnection := trivial
  have connected : (memoryMachine fun _ _ _ => []).step sampleServer
      ⟨sampleConnection, sampleServer⟩ = some (connectedServer, []) :=
    (Machine.undefinedUnless_step_of_fits fits sampleServer).trans stepped
  have overrun : ¬ connectedServer.Fits (fun _ _ _ => []) (.received 5 overlongCommand) := by
    decide +kernel
  have admitted : connectedServer.Admissible (.received 5 overlongCommand) := by
    decide +kernel
  exact .cons sampleConnection_admitted connected
    (.cons admitted (Machine.undefinedUnless_step_of_not overrun overrunServer) .refl)

end CommunicationProtocols.Server
