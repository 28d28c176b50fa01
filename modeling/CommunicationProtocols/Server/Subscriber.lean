import CommunicationProtocols.Server.Loop

/-!
# The subscriber

The subscriber prints what it receives, chunk by chunk, as a string. A chunk of
the size of its buffer leaves no room for a terminator, and a chunk that reads
`exit` is taken for the refusal of its id. The stream of messages comes out as it
went in exactly when no chunk is one of these.
-/

namespace CommunicationProtocols.Subscriber

open Library Server

/-- What a round of the loop finds: a line on the terminal, or what `recv` returns,
which is empty once the server has closed the connection. -/
inductive Event where
  | line (line : CString)
  | chunk (bytes : List UInt8)
deriving DecidableEq

/-- What a round of the loop does: it prints, it sends to the server, or it reads
behind the end of the buffer. -/
inductive Output where
  | printed (bytes : List UInt8)
  | sent (bytes : List UInt8)
  | overread
deriving DecidableEq

/-- Whether the loop goes on, or how it was left. -/
inductive Phase where
  | running
  | userExit
  | serverClosed
  | idUsed
deriving DecidableEq

structure State where
  buffer : ByteBuffer
  phase : Phase

/-- `printf("%s", buffer)`, which reads up to a terminator. -/
def print (buffer : ByteBuffer) : List Output :=
  let string := buffer.string 0 bufLen
  .printed string :: if string.length < bufLen then [] else [.overread]

/-- The branch of the terminal. -/
def line (state : State) (line : CString) : State × List Output :=
  let buffer := (state.buffer.clear bufLen).receive line
  let string := buffer.string 0 bufLen
  if string = exitWord ++ [10] then (⟨buffer, .userExit⟩, [])
  else (⟨buffer, .running⟩, [.sent string])

/-- The branch of the server's socket. -/
def chunk (state : State) (bytes : List UInt8) : State × List Output :=
  let buffer := (state.buffer.clear bufLen).receive bytes
  if bytes = [] then (⟨buffer, .serverClosed⟩, [])
  else if buffer.string 0 bufLen = exitWord then (⟨buffer, .idUsed⟩, [])
  else (⟨buffer, .running⟩, print buffer)

/-- One round of the loop. -/
def round (state : State) : Event → State × List Output
  | .line text => line state text
  | .chunk bytes => chunk state bytes

/-- The loop on the events that are there for it, until it is left. -/
def loop (state : State) : List Event → State × List Output
  | [] => (state, [])
  | event :: events =>
      if state.phase = .running then
        let next := round state event
        let rest := loop next.1 events
        (rest.1, next.2 ++ rest.2)
      else
        (state, [])

/-- The bytes a list of events receives from the server. -/
def receivedBy (events : List Event) : List UInt8 :=
  events.flatMap fun event => match event with
    | .line _ => []
    | .chunk bytes => bytes

/-- The bytes a list of outputs prints. -/
def printedBy (outputs : List Output) : List UInt8 :=
  outputs.flatMap fun output => match output with
    | .printed bytes => bytes
    | _ => []

/-- Events while the server sends lines and the user does not leave: lines of the
terminal that fit, and the stream of the server in chunks. -/
structure Streams (lines : List CString) (events : List Event) : Prop where
  received : receivedBy events = (lines.map fun line => line ++ [10]).flatten
  whole : ∀ line ∈ lines, 0 ∉ line
  chunks : ∀ bytes, .chunk bytes ∈ events → bytes ≠ [] ∧ bytes.length ≤ bufLen
  typed : ∀ line, .line line ∈ events →
    line.length + 1 < bufLen ∧ 0 ∉ line ∧ line ≠ exitWord ++ [10]

/-- The stream is printed as it was received, from inside the buffer, and the loop goes on. -/
structure PrintsStream (start : State) (events : List Event) : Prop where
  printed : printedBy (loop start events).2 = receivedBy events
  inBounds : .overread ∉ (loop start events).2
  running : (loop start events).1.phase = .running

/-! ## One round -/

variable {state : State} {events : List Event} {bytes : List UInt8}

/-- The loop goes on only if every round does. -/
theorem running_of_loop (running : (loop state events).1.phase = .running) :
    state.phase = .running := by
  cases events with
  | nil => exact running
  | cons event events =>
      unfold loop at running
      split at running
      case isTrue here => exact here
      case isFalse => exact running

/-- A chunk that is neither the word nor as long as the buffer is printed. -/
theorem chunk_printed (nonempty : bytes ≠ []) (whole : 0 ∉ bytes) (fits : bytes.length < bufLen)
    (message : bytes ≠ exitWord) :
    (round state (.chunk bytes)).1.phase = .running ∧
      (round state (.chunk bytes)).2 = [.printed bytes] := by
  have string := ByteBuffer.string_receive_clear state.buffer (Nat.le_of_lt fits) whole
  simp only [round, chunk, print, string, if_neg nonempty, if_neg message, if_pos fits, and_self]

/-- The word `exit` from the server ends the subscriber. -/
theorem chunk_exit : (round state (.chunk exitWord)).1.phase = .idUsed := by
  have string := ByteBuffer.string_receive_clear state.buffer
    (by decide : exitWord.length ≤ bufLen) (by decide)
  have nonempty : exitWord ≠ [] := by decide
  simp only [round, chunk, string, if_neg nonempty, if_true]

/-- A chunk as long as the buffer is printed without a terminator. -/
theorem chunk_full (whole : 0 ∉ bytes) (full : bytes.length = bufLen) :
    .overread ∈ (round state (.chunk bytes)).2 := by
  have string := ByteBuffer.string_receive_clear state.buffer (Nat.le_of_eq full) whole
  have message : bytes ≠ exitWord := fun same => absurd (same ▸ full) (by decide)
  have nonempty : bytes ≠ [] := fun same => absurd (same ▸ full) (by decide)
  simp only [round, chunk, print, string, if_neg nonempty, if_neg message, full, Nat.lt_irrefl,
    if_false]
  exact List.mem_cons_of_mem _ List.mem_cons_self

/-- A line that fits and is not `exit` is sent as it is. -/
theorem line_sent {text : CString} (fits : text.length + 1 < bufLen) (whole : 0 ∉ text)
    (stays : text ≠ exitWord ++ [10]) :
    (round state (.line text)).1.phase = .running ∧
      (round state (.line text)).2 = [.sent text] := by
  have string := ByteBuffer.string_receive_clear state.buffer
    (by omega : text.length ≤ bufLen) whole
  simp only [round, line, string, if_neg stays, and_self]

/-! ## The whole stream -/

/-- The loop is a round and the loop that follows. -/
theorem loop_cons (running : state.phase = .running) (event : Event) :
    loop state (event :: events) =
      ((loop (round state event).1 events).1,
        (round state event).2 ++ (loop (round state event).1 events).2) := by
  rw [loop, if_pos running]

/-- A round that prints what it receives leaves the rest of the stream to the next. -/
theorem printsStream_cons (running : state.phase = .running) {event : Event}
    (printed : printedBy (round state event).2 = receivedBy [event])
    (inBounds : .overread ∉ (round state event).2) :
    PrintsStream state (event :: events) ↔ PrintsStream (round state event).1 events := by
  have received : receivedBy (event :: events) = receivedBy [event] ++ receivedBy events := by
    simp [receivedBy]
  have allPrinted : printedBy (loop state (event :: events)).2 =
      receivedBy [event] ++ printedBy (loop (round state event).1 events).2 := by
    rw [loop_cons running, ← printed]
    simp [printedBy]
  constructor
  · intro prints
    refine ⟨?_, fun member => prints.inBounds ?_, ?_⟩
    · have all := prints.printed
      rw [allPrinted, received] at all
      exact List.append_cancel_left all
    · rw [loop_cons running]
      exact List.mem_append_right _ member
    · have goesOn := prints.running
      rwa [loop_cons running] at goesOn
  · intro prints
    refine ⟨?_, fun member => ?_, ?_⟩
    · rw [allPrinted, received, prints.printed]
    · rw [loop_cons running] at member
      exact (List.mem_append.mp member).elim inBounds prints.inBounds
    · rw [loop_cons running]
      exact prints.running

/-- What a round may find while the stream goes on. -/
def Event.Streamed : Event → Prop
  | .line text => text.length + 1 < bufLen ∧ 0 ∉ text ∧ text ≠ exitWord ++ [10]
  | .chunk bytes => bytes ≠ [] ∧ bytes.length ≤ bufLen ∧ 0 ∉ bytes

/-- Everything is printed exactly if no chunk is `exit` or fills the buffer. -/
theorem printsStream_iff_of_streamed (running : state.phase = .running)
    (streamed : ∀ event ∈ events, event.Streamed) :
    PrintsStream state events ↔
      ∀ bytes, .chunk bytes ∈ events → bytes ≠ exitWord ∧ bytes.length < bufLen := by
  induction events generalizing state with
  | nil => exact iff_of_true ⟨rfl, List.not_mem_nil, running⟩ fun _ member => by cases member
  | cons event events ih =>
      have later := fun event member => streamed event (List.mem_cons_of_mem _ member)
      cases event with
      | line text =>
          obtain ⟨fits, whole, stays⟩ := streamed _ List.mem_cons_self
          obtain ⟨goesOn, outputs⟩ := @line_sent state text fits whole stays
          have inBounds : .overread ∉ (round state (.line text)).2 := by
            rw [outputs]
            simp
          rw [printsStream_cons running (by rw [outputs]; rfl) inBounds, ih goesOn later]
          simp
      | chunk bytes =>
          obtain ⟨nonempty, fits, whole⟩ := streamed _ List.mem_cons_self
          by_cases message : bytes = exitWord
          · -- the word ends the loop
            refine iff_of_false (fun prints => ?_) fun all => (all bytes List.mem_cons_self).1 message
            have goesOn := prints.running
            rw [loop_cons running] at goesOn
            have stopped := running_of_loop goesOn
            rw [message, chunk_exit] at stopped
            cases stopped
          rcases Nat.lt_or_eq_of_le fits with short | full
          · obtain ⟨goesOn, outputs⟩ := @chunk_printed state bytes nonempty whole short message
            have printed : printedBy (round state (.chunk bytes)).2 = receivedBy [.chunk bytes] := by
              rw [outputs]
              rfl
            have inBounds : .overread ∉ (round state (.chunk bytes)).2 := by
              rw [outputs]
              simp
            rw [printsStream_cons running printed inBounds, ih goesOn later]
            simp [message, short]
          · -- the printing reads behind the buffer
            refine iff_of_false (fun prints => prints.inBounds ?_) fun all =>
              absurd (all bytes List.mem_cons_self).2 (by rw [full]; exact Nat.lt_irrefl _)
            rw [loop_cons running]
            exact List.mem_append_left _ (chunk_full whole full)

/-- The bytes of a chunk are bytes of the lines. -/
theorem Streams.streamed {lines : List CString} (streams : Streams lines events) :
    ∀ event ∈ events, event.Streamed := by
  intro event member
  cases event with
  | line text => exact streams.typed text member
  | chunk bytes =>
      obtain ⟨nonempty, fits⟩ := streams.chunks bytes member
      refine ⟨nonempty, fits, fun zero => ?_⟩
      have inStream : 0 ∈ receivedBy events :=
        List.mem_flatMap.mpr ⟨.chunk bytes, member, zero⟩
      rw [streams.received, List.mem_flatten] at inStream
      obtain ⟨ended, fromLines, inLine⟩ := inStream
      obtain ⟨line, source, rfl⟩ := List.mem_map.mp fromLines
      rcases List.mem_append.mp inLine with inText | newline
      · exact streams.whole line source inText
      · exact absurd (List.mem_singleton.mp newline) (by decide)

/-- A stream of lines is printed as it was received exactly if no chunk of it is
the word for a refused id or as long as the buffer. -/
theorem printsStream_iff {lines : List CString} (streams : Streams lines events)
    (running : state.phase = .running) :
    PrintsStream state events ↔
      ∀ bytes, .chunk bytes ∈ events → bytes ≠ exitWord ∧ bytes.length < bufLen :=
  printsStream_iff_of_streamed running streams.streamed

/-- The subscriber with its buffer cleared. -/
def sampleState : State := ⟨fun _ => 0, .running⟩

/-- What the server puts in front of a text on the topic "news". -/
def sampleFront : CString := ascii "10.0.0.5:4000 - news - STRING - "

/-- The message with the text "exit", in two chunks. -/
theorem printsStream_two_chunks : PrintsStream sampleState
    [.chunk (sampleFront ++ ascii "ex"), .chunk (ascii "it\n")] := by
  have streams : Streams [sampleFront ++ exitWord]
      [.chunk (sampleFront ++ ascii "ex"), .chunk (ascii "it\n")] := by
    constructor <;> simp [receivedBy, sampleFront, ascii, exitWord, bufLen]
  refine (printsStream_iff streams rfl).mpr ?_
  simp [sampleFront, ascii, exitWord, bufLen]

/-- The same message in three chunks ends the subscriber in the middle. -/
theorem message_taken_for_exit :
    Streams [sampleFront ++ exitWord] [.chunk sampleFront, .chunk exitWord, .chunk [10]] ∧
      sampleState.phase = .running ∧
      ¬ PrintsStream sampleState [.chunk sampleFront, .chunk exitWord, .chunk [10]] := by
  have streams : Streams [sampleFront ++ exitWord]
      [.chunk sampleFront, .chunk exitWord, .chunk [10]] := by
    constructor <;> simp [receivedBy, sampleFront, ascii, exitWord, bufLen]
  refine ⟨streams, rfl, fun prints => ?_⟩
  have unmistaken := (printsStream_iff_of_streamed rfl streams.streamed).mp prints exitWord
  exact (unmistaken (by simp)).1 rfl

end CommunicationProtocols.Subscriber
