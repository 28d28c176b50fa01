import CommunicationProtocols.Server.Subscriptions
import Mathlib.Data.List.SplitLengths

/-!
# Lines and received chunks

A subscriber writes a stream of lines, but the server takes what one `recv`
returns for one command. The topics come out as if every line had been received
on its own exactly when every line was: for any other way of cutting a stream of
lines there are lines of the same lengths that are misread.
-/

namespace CommunicationProtocols.Server

open Library

variable {floatText : FloatText}

/-- Receive chunk after chunk from one client. -/
def ServerState.receiveAll (fd : Fd) : ServerState → List (List UInt8) → Option ServerState
  | server, [] => some server
  | server, bytes :: rest =>
      (server.received fd bytes).bind fun result => receiveAll fd result.1 rest

/-- The number of bytes of a line. -/
def CommandLine.length (line : CommandLine) : Nat := line.bytes.length

/-- For lines and chunks of these lengths, the topics of a client are the same after the
chunks as after the lines, whatever the lines and wherever the server has got to. -/
def FramingIndependent (lineLengths chunkLengths : List Nat) : Prop :=
  ∀ (floatText : FloatText) (origin server : ServerState)
    (trace : List (Transition ServerState ServerEvent Transmission)) (fd : Fd) (ptr : ClientPtr)
    (lines : List CommandLine) (chunks : List (List UInt8)),
    origin.session.Initial → (serverMachine floatText).Run origin trace server →
    KeyedList.find Prod.fst fd server.session.onlineClients = some (fd, ptr) →
    lines.map CommandLine.length = lineLengths → chunks.map List.length = chunkLengths →
    chunks.flatten = (lines.map CommandLine.bytes).flatten →
    ∃ byLine byChunk, server.receiveAll fd (lines.map CommandLine.bytes) = some byLine ∧
      server.receiveAll fd chunks = some byChunk ∧
      (byChunk.session.clients ptr).topics = (byLine.session.clients ptr).topics

/-! ## Line by line -/

/-- The message once a line has been dealt with. -/
def CommandLine.leaves (before : ServerMessage) : CommandLine → ServerMessage
  | .subscribe _ topic _ _ sf => ⟨115, topic, sf⟩
  | .unsubscribe _ topic _ => ⟨117, topic, before.sf⟩

/-- A line that arrives whole does what it says. -/
theorem ServerState.received_line (server : ServerState) {fd : Fd} {ptr : ClientPtr}
    (found : KeyedList.find Prod.fst fd server.session.onlineClients = some (fd, ptr))
    (line : CommandLine) (fits : line.length < bufLen) :
    ∃ buffer, server.received fd line.bytes =
      some (⟨server.session.setTopics ptr line.change, line.leaves server.sMessage, buffer⟩, []) := by
  have received := ByteBuffer.string_receive_clear server.buffer (Nat.le_of_lt fits)
    line.zero_not_mem_bytes
  obtain ⟨accepted, message⟩ := line.decode_bytes server.sMessage
  simp only [ServerState.received, if_neg line.bytes_ne_nil, received, accepted, message]
  cases line with
  | subscribe spaces topic valid spaces' sf =>
      simp [CommandLine.message, Session.subscribe, Session.changeTopics_eq found,
        CommandLine.change, CommandLine.leaves]
  | unsubscribe spaces topic valid =>
      simp [CommandLine.message, chopTopic_newline, Session.unsubscribe,
        Session.changeTopics_eq found, CommandLine.change, CommandLine.leaves]

/-- Lines that arrive one by one all get through. -/
theorem ServerState.receiveAll_lines {server : ServerState} {fd : Fd} {ptr : ClientPtr}
    (found : KeyedList.find Prod.fst fd server.session.onlineClients = some (fd, ptr))
    (lines : List CommandLine) (fit : ∀ line ∈ lines, line.length < bufLen) :
    ∃ after, server.receiveAll fd (lines.map CommandLine.bytes) = some after := by
  induction lines generalizing server with
  | nil => exact ⟨server, rfl⟩
  | cons line rest ih =>
      obtain ⟨buffer, received⟩ := server.received_line found line (fit line List.mem_cons_self)
      simp only [List.map_cons, receiveAll, received, Option.bind_some]
      exact ih found fun other member => fit other (List.mem_cons_of_mem _ member)

/-- Chunks that are the lines do what the lines do. -/
theorem framingIndependent_of_eq {lengths : List Nat} (fit : ∀ n ∈ lengths, n < bufLen) :
    FramingIndependent lengths lengths := by
  rintro floatText origin server trace fd ptr lines chunks _ _ found rfl chunkLengths stream
  have same : chunks = lines.map CommandLine.bytes := by
    rw [List.eq_iff_flatten_eq]
    exact ⟨stream, by rw [chunkLengths, List.map_map]; rfl⟩
  obtain ⟨after, received⟩ := server.receiveAll_lines found lines fun line member =>
    fit _ (List.mem_map_of_mem member)
  exact ⟨after, after, received, same ▸ received, rfl⟩

/-! ## What a chunk can turn on -/

/-- The message is what the loop over the tokens leaves. -/
theorem decodeMessage_message (message : ServerMessage) (string : CString) :
    (decodeMessage message string).message =
      (decodeLoop message 1 (Tokens.tokens blank string)).message := by
  dsimp only [decodeMessage]
  split <;> rfl

/-- A fourth word changes nothing any more. -/
theorem decodeLoop_fourth (message : ServerMessage) (tokens : List CString) :
    (decodeLoop message 4 tokens).message = message := by
  cases tokens <;> rfl

/-- A third word other than `"1\n"` leaves the flag off. -/
theorem decodeLoop_third {message : ServerMessage} {flag : CString} (more : List CString)
    (off : message.sf = false) (differs : flag ≠ oneLine) :
    (decodeLoop message 3 (flag :: more)).message.sf = false := by
  rw [decodeLoop, if_neg (by decide), if_neg (by decide), if_pos rfl]
  split
  · exact off
  · dsimp only
    split
    · exact decide_eq_false differs
    · rw [decodeLoop_fourth]
      exact decide_eq_false differs

/-- Only a command with `"1\n"` as its third word turns the flag on. -/
theorem decodeMessage_sf {message : ServerMessage} {string : CString} (off : message.sf = false)
    (on : (decodeMessage message string).message.sf = true) :
    ∃ word topic more, Tokens.tokens blank string = word :: topic :: oneLine :: more ∧
      (word = subscribeWord ∨ word = unsubscribeWord) := by
  rw [decodeMessage_message] at on
  generalize Tokens.tokens blank string = tokens at on
  cases tokens with
  | nil => simp [decodeLoop, off] at on
  | cons word rest =>
      by_cases known : word = subscribeWord ∨ word = unsubscribeWord
      · have accepted : ¬ (word ≠ subscribeWord ∧ word ≠ unsubscribeWord) := by tauto
        rw [decodeLoop, if_pos rfl, if_neg accepted] at on
        obtain _ | ⟨topic, _ | ⟨flag, more⟩⟩ := rest
        · simp [decodeLoop, off] at on
        · simp [decodeLoop, off] at on
        · refine ⟨word, topic, more, ?_, known⟩
          by_contra differs
          have third : decodeLoop { message with type := word.headD 0 } 2
                (topic :: flag :: more) =
              decodeLoop ⟨word.headD 0, topic, message.sf⟩ 3 (flag :: more) := rfl
          have differs' : flag ≠ oneLine := fun same => differs (by rw [same])
          have still : (decodeLoop ⟨word.headD 0, topic, message.sf⟩ 3
              (flag :: more)).message.sf = false := decodeLoop_third more off differs'
          rw [third, still] at on
          cases on
      · have rejected : word ≠ subscribeWord ∧ word ≠ unsubscribeWord := by tauto
        simp [decodeLoop, rejected, off] at on

/-- The client is online, the flag of the shared message is off, and so are the flags of all
its topics. -/
structure Quiet (fd : Fd) (ptr : ClientPtr) (server : ServerState) : Prop where
  found : KeyedList.find Prod.fst fd server.session.onlineClients = some (fd, ptr)
  off : server.sMessage.sf = false
  topicsOff : ∀ topic ∈ (server.session.clients ptr).topics, topic.sf = false

/-- Changing the topics without the flag keeps everything off. -/
theorem Quiet.setTopics {fd : Fd} {ptr : ClientPtr} {server : ServerState}
    (quiet : Quiet fd ptr server) {change : List Topic → List Topic} {message : ServerMessage}
    {buffer : ByteBuffer} (off : message.sf = false)
    (keeps : ∀ topics, ∀ topic ∈ change topics, topic ∈ topics ∨ topic.sf = false) :
    Quiet fd ptr ⟨server.session.setTopics ptr change, message, buffer⟩ where
  found := quiet.found
  off := off
  topicsOff topic member := by
    rw [Session.setTopics_clients_same] at member
    obtain earlier | now := keeps _ topic member
    · exact quiet.topicsOff topic earlier
    · exact now

/-- Chopping the topic leaves the flag. -/
theorem chopTopic_sf (message : ServerMessage) : (chopTopic message).sf = message.sf := by
  unfold chopTopic
  split <;> rfl

/-- A chunk that is no complete `"1\n"` command keeps everything off. -/
theorem Quiet.received {fd : Fd} {ptr : ClientPtr} {server : ServerState}
    (quiet : Quiet fd ptr server) {chunk : List UInt8} (nonempty : chunk ≠ [])
    (fits : chunk.length < bufLen) (whole : 0 ∉ chunk)
    (harmless : ∀ word topic more, Tokens.tokens blank chunk = word :: topic :: oneLine :: more →
      ¬ (word = subscribeWord ∨ word = unsubscribeWord)) :
    ∃ after outputs, server.received fd chunk = some (after, outputs) ∧ Quiet fd ptr after := by
  have received := ByteBuffer.string_receive_clear server.buffer (Nat.le_of_lt fits) whole
  have off : (decodeMessage server.sMessage chunk).message.sf = false := by
    rw [← Bool.not_eq_true]
    intro on
    obtain ⟨word, topic, more, tokens, known⟩ := decodeMessage_sf quiet.off on
    exact harmless word topic more tokens known
  simp only [ServerState.received, if_neg nonempty, received]
  split
  · exact ⟨_, _, rfl, quiet.found, off, quiet.topicsOff⟩
  · split
    · rw [Session.subscribe, Session.changeTopics_eq quiet.found]
      refine ⟨_, _, rfl, quiet.setTopics off fun topics topic member => ?_⟩
      obtain rfl | earlier := KeyedList.mem_put member
      · exact .inr off
      · exact .inl earlier
    · rw [Session.unsubscribe, Session.changeTopics_eq quiet.found]
      refine ⟨_, _, rfl, quiet.setTopics ((chopTopic_sf _).trans off) fun topics topic member => ?_⟩
      exact .inl ((KeyedList.remove_sublist _ topics).subset member)

/-- Chunks that are no complete `"1\n"` commands keep everything off. -/
theorem Quiet.receiveAll {fd : Fd} {ptr : ClientPtr} {server : ServerState}
    (quiet : Quiet fd ptr server) {chunks : List (List UInt8)}
    (nonempty : ∀ chunk ∈ chunks, chunk ≠ [])
    (fit : ∀ chunk ∈ chunks, chunk.length < bufLen) (whole : ∀ chunk ∈ chunks, 0 ∉ chunk)
    (harmless : ∀ chunk ∈ chunks, ∀ word topic more,
      Tokens.tokens blank chunk = word :: topic :: oneLine :: more →
        ¬ (word = subscribeWord ∨ word = unsubscribeWord)) :
    ∃ after, server.receiveAll fd chunks = some after ∧ Quiet fd ptr after := by
  induction chunks generalizing server with
  | nil => exact ⟨server, rfl, quiet⟩
  | cons chunk rest ih =>
      rw [List.forall_mem_cons] at nonempty fit whole harmless
      obtain ⟨next, outputs, received, still⟩ :=
        quiet.received nonempty.1 fit.1 whole.1 harmless.1
      simp only [ServerState.receiveAll, received, Option.bind_some]
      exact ih still nonempty.2 fit.2 whole.2 harmless.2

/-! ## Lines that are misread -/

/-- The one line that subscribes with the flag on, padded to a length. -/
def switchLine (n : Nat) : CommandLine :=
  .subscribe 0 [97] (by decide) (n - 14) true

/-- What stands in that line before its last word. -/
def switchHead (n : Nat) : List UInt8 :=
  subscribeWord ++ [blank] ++ [97] ++ List.replicate (n - 14 + 1) blank

/-- A line that does nothing to that subscription, padded to a length. -/
def idleLine (n : Nat) : CommandLine :=
  .unsubscribe (n - 14) [98] (by decide)

/-- The line ends with the flag on. -/
theorem switchLine_bytes (n : Nat) : (switchLine n).bytes = switchHead n ++ oneLine := rfl

/-- The line has the length asked for. -/
theorem switchLine_length {n : Nat} (enough : 14 ≤ n) : (switchLine n).length = n := by
  rw [CommandLine.length, switchLine_bytes]
  simp [switchHead, subscribeWord, oneLine]
  omega

/-- The line has the length asked for. -/
theorem idleLine_length {n : Nat} (enough : 14 ≤ n) : (idleLine n).length = n := by
  simp [CommandLine.length, idleLine, CommandLine.bytes, unsubscribeWord, subscribeWord]
  omega

/-- Before its last word the line has no `1`. -/
theorem one_not_mem_switchHead (n : Nat) : 49 ∉ switchHead n := by
  simp [switchHead, subscribeWord, blank]

/-- The line has no `1`. -/
theorem one_not_mem_idleLine (n : Nat) : 49 ∉ (idleLine n).bytes := by
  simp [idleLine, CommandLine.bytes, unsubscribeWord, subscribeWord, blank]

/-- Before its last word the line has two `s`, those of `subscribe`. -/
theorem count_switchHead (n : Nat) : (switchHead n).count 115 = 2 := by
  simp [switchHead, subscribeWord, List.count_replicate, blank]

/-- In a stream with one `"1\n"` a chunk that is a complete `"1\n"` command is the first chunk
and all of the first line. -/
theorem first_of_complete {n : Nat} {rest : List UInt8} (once : 49 ∉ rest)
    (next : rest.head? ≠ some blank) {before after : List (List UInt8)} {chunk : List UInt8}
    (nonempty : ∀ piece ∈ before, piece ≠ [])
    (stream : (before ++ chunk :: after).flatten = switchHead n ++ oneLine ++ rest)
    {word topic : CString} {more : List CString}
    (tokens : Tokens.tokens blank chunk = word :: topic :: oneLine :: more)
    (known : word = subscribeWord ∨ word = unsubscribeWord) :
    before = [] ∧ chunk = switchHead n ++ oneLine := by
  obtain ⟨front, back, split, stops⟩ :=
    Tokens.exists_of_mem_tokens (show oneLine ∈ Tokens.tokens blank chunk by simp [tokens])
  obtain ⟨front', back', split', _⟩ :=
    Tokens.exists_of_mem_tokens (show word ∈ Tokens.tokens blank chunk by simp [tokens])
  -- The byte 49 occurs once, so the two ways of cutting the stream at it agree.
  have aligned : switchHead n ++ 49 :: (10 :: rest) =
      (before.flatten ++ front) ++ 49 :: (10 :: (back ++ after.flatten)) := by
    have joined := stream.symm
    rw [split] at joined
    simpa [oneLine] using joined
  have once' : 49 ∉ (10 :: rest : List UInt8) := by simpa using once
  obtain ⟨heads, _, tails⟩ :=
    (List.append_cons_inj_of_notMem (one_not_mem_switchHead n) once').mp aligned
  have ends : back = [] := by
    obtain empty | separated := stops
    · exact empty
    · refine absurd ?_ next
      obtain ⟨byte, tail, rfl⟩ := List.exists_cons_of_ne_nil
        (show back ≠ [] by rintro rfl; cases separated)
      obtain rfl : rest = byte :: (tail ++ after.flatten) := (List.cons.inj tails).2
      exact separated
  rw [ends, List.append_nil] at split
  -- A complete command has two of the two bytes 115 in front of the last word.
  have twice : 2 ≤ front.count 115 := by
    have known' : 2 ≤ word.count 115 := by
      rcases known with rfl | rfl <;> decide
    have inChunk : word.count 115 ≤ chunk.count 115 := by
      rw [split', List.count_append, List.count_append]
      omega
    rw [split, List.count_append, show List.count 115 oneLine = 0 by decide] at inChunk
    omega
  have counted := count_switchHead n
  rw [heads, List.count_append] at counted
  have nothing : before.flatten = [] := by
    cases start : before.flatten with
    | nil => rfl
    | cons byte tail =>
        rw [start] at heads counted
        obtain rfl : 115 = byte := (List.cons.inj heads).1
        simp only [List.count_cons_self] at counted
        omega
  rw [nothing, List.nil_append] at heads
  rw [split, heads]
  refine ⟨?_, rfl⟩
  cases before with
  | nil => rfl
  | cons piece pieces =>
      exact absurd (List.append_eq_nil_iff.mp nothing).1 (nonempty piece List.mem_cons_self)

/-- Idle lines leave a list without their topic alone. -/
theorem ServerState.receiveAll_idle {server : ServerState} {fd : Fd} {ptr : ClientPtr}
    (found : KeyedList.find Prod.fst fd server.session.onlineClients = some (fd, ptr))
    (unnamed : removeTopic [98] (server.session.clients ptr).topics =
      (server.session.clients ptr).topics)
    {lengths : List Nat} (fit : ∀ n ∈ lengths, 14 ≤ n ∧ n < bufLen) :
    ∃ after, server.receiveAll fd ((lengths.map idleLine).map CommandLine.bytes) = some after ∧
      (after.session.clients ptr).topics = (server.session.clients ptr).topics := by
  induction lengths generalizing server with
  | nil => exact ⟨server, rfl, rfl⟩
  | cons n rest ih =>
      rw [List.forall_mem_cons] at fit
      obtain ⟨buffer, received⟩ := server.received_line found (idleLine n)
        (by rw [idleLine_length fit.1.1]; exact fit.1.2)
      have same : ((server.session.setTopics ptr (idleLine n).change).clients ptr).topics =
          (server.session.clients ptr).topics := by
        rw [Session.setTopics_clients_same]
        exact unnamed
      simp only [List.map_cons, receiveAll, received, Option.bind_some]
      have unnamed' : removeTopic [98]
          ((server.session.setTopics ptr (idleLine n).change).clients ptr).topics =
            ((server.session.setTopics ptr (idleLine n).change).clients ptr).topics := by
        rw [same]
        exact unnamed
      obtain ⟨after, receivedRest, topics⟩ := @ih
        ⟨server.session.setTopics ptr (idleLine n).change, _, buffer⟩ found unnamed' fit.2
      exact ⟨after, receivedRest, topics.trans same⟩

/-- A client without topics whose server has the flag off. -/
structure Untouched (fd : Fd) (ptr : ClientPtr) (server : ServerState) : Prop where
  found : KeyedList.find Prod.fst fd server.session.onlineClients = some (fd, ptr)
  off : server.sMessage.sf = false
  empty : (server.session.clients ptr).topics = []

/-- There are lines of these lengths, and chunks of these lengths of the same stream, such that
only the lines subscribe the client. -/
def Misses (fd : Fd) (ptr : ClientPtr) (server : ServerState) (lineLengths chunkLengths : List Nat) :
    Prop :=
  ∃ (lines : List CommandLine) (chunks : List (List UInt8)),
    lines.map CommandLine.length = lineLengths ∧ chunks.map List.length = chunkLengths ∧
    chunks.flatten = (lines.map CommandLine.bytes).flatten ∧
    ∃ byLine byChunk, server.receiveAll fd (lines.map CommandLine.bytes) = some byLine ∧
      server.receiveAll fd chunks = some byChunk ∧
      (byLine.session.clients ptr).topics = [⟨[97], true⟩] ∧ Quiet fd ptr byChunk

/-- A stream of such lines does not start with a blank. -/
theorem head_idle (lengths : List Nat) :
    ((lengths.map idleLine).map CommandLine.bytes).flatten.head? ≠ some blank := by
  cases lengths with
  | nil => simp
  | cons n rest => simp [idleLine, CommandLine.bytes, unsubscribeWord, blank]

/-- A stream of such lines has no `1`. -/
theorem one_not_mem_idle (lengths : List Nat) :
    49 ∉ ((lengths.map idleLine).map CommandLine.bytes).flatten := by
  simp only [List.mem_flatten, List.mem_map, not_exists, not_and]
  rintro _ ⟨_, ⟨n, _, rfl⟩, rfl⟩
  exact one_not_mem_idleLine n

/-- A stream of lines has no NUL. -/
theorem zero_not_mem_stream (lines : List CommandLine) :
    0 ∉ (lines.map CommandLine.bytes).flatten := by
  simp only [List.mem_flatten, List.mem_map, not_exists, not_and]
  rintro _ ⟨line, _, rfl⟩
  exact line.zero_not_mem_bytes

/-- The lines that are misread if the first of them is not received on its own. -/
def fragileLines (n : Nat) (lengths : List Nat) : List CommandLine :=
  switchLine n :: lengths.map idleLine

/-- The lines have the lengths asked for. -/
theorem fragileLines_length {n : Nat} {lengths : List Nat} (fit : ∀ k ∈ n :: lengths, 14 ≤ k) :
    (fragileLines n lengths).map CommandLine.length = n :: lengths := by
  rw [List.forall_mem_cons] at fit
  have idles : (lengths.map idleLine).map CommandLine.length = lengths := by
    rw [List.map_map]
    exact (List.map_congr_left fun k member => idleLine_length (fit.2 k member)).trans
      (List.map_id lengths)
  rw [fragileLines, List.map_cons, switchLine_length fit.1, idles]

/-- Received line by line they subscribe the client to one topic. -/
theorem Untouched.receiveAll_fragileLines {fd : Fd} {ptr : ClientPtr} {server : ServerState}
    (untouched : Untouched fd ptr server) {n : Nat} {lengths : List Nat}
    (fit : ∀ k ∈ n :: lengths, 14 ≤ k ∧ k < bufLen) :
    ∃ after,
      server.receiveAll fd ((fragileLines n lengths).map CommandLine.bytes) = some after ∧
        (after.session.clients ptr).topics = [⟨[97], true⟩] := by
  rw [List.forall_mem_cons] at fit
  obtain ⟨buffer, received⟩ := server.received_line untouched.found (switchLine n)
    (by rw [switchLine_length fit.1.1]; exact fit.1.2)
  have subscribed : ((server.session.setTopics ptr (switchLine n).change).clients ptr).topics =
      [⟨[97], true⟩] := by
    rw [Session.setTopics_clients_same, untouched.empty]
    rfl
  have unnamed : removeTopic [98]
      ((server.session.setTopics ptr (switchLine n).change).clients ptr).topics =
        ((server.session.setTopics ptr (switchLine n).change).clients ptr).topics := by
    rw [subscribed]
    rfl
  obtain ⟨after, receivedRest, topics⟩ := @ServerState.receiveAll_idle
    ⟨server.session.setTopics ptr (switchLine n).change, _, buffer⟩ fd ptr untouched.found unnamed
    _ fit.2
  refine ⟨after, ?_, topics.trans subscribed⟩
  simp only [fragileLines, List.map_cons, ServerState.receiveAll, received, Option.bind_some]
  exact receivedRest

/-- Chunks of which the first is not the first of these lines keep everything off. -/
theorem Untouched.receiveAll_chunks {fd : Fd} {ptr : ClientPtr} {server : ServerState}
    (untouched : Untouched fd ptr server) {n m : Nat} (enough : 14 ≤ n) (differs : m ≠ n)
    {lineLengths chunkLengths : List Nat} {chunks : List (List UInt8)}
    (lengths : chunks.map List.length = m :: chunkLengths)
    (fit : ∀ k ∈ m :: chunkLengths, 0 < k ∧ k < bufLen)
    (stream : chunks.flatten = ((fragileLines n lineLengths).map CommandLine.bytes).flatten) :
    ∃ after, server.receiveAll fd chunks = some after ∧ Quiet fd ptr after := by
  have fits (chunk : List UInt8) (member : chunk ∈ chunks) :
      0 < chunk.length ∧ chunk.length < bufLen := by
    apply fit
    rw [← lengths]
    exact List.mem_map_of_mem member
  have nonempty (chunk : List UInt8) (member : chunk ∈ chunks) : chunk ≠ [] :=
    List.length_pos_iff.mp (fits chunk member).1
  have whole (chunk : List UInt8) (member : chunk ∈ chunks) : 0 ∉ chunk := fun zero =>
    zero_not_mem_stream (fragileLines n lineLengths)
      (stream ▸ List.mem_flatten_of_mem member zero)
  have quiet : Quiet fd ptr server := ⟨untouched.found, untouched.off, by simp [untouched.empty]⟩
  apply quiet.receiveAll nonempty (fun chunk member => (fits chunk member).2) whole
  intro chunk member word topic more tokens known
  obtain ⟨before, after, rfl⟩ := List.append_of_mem member
  have cut : (before ++ chunk :: after).flatten = switchHead n ++ oneLine ++
      ((lineLengths.map idleLine).map CommandLine.bytes).flatten := stream
  obtain ⟨rfl, rfl⟩ := first_of_complete (one_not_mem_idle _) (head_idle _)
    (fun piece earlier => nonempty piece (List.mem_append_left _ earlier)) cut tokens known
  exact differs ((List.cons.inj lengths).1.symm.trans (switchLine_length enough))

/-- If the first chunk is not as long as the first line, the lines can be misread. -/
theorem Untouched.misses_of_ne {fd : Fd} {ptr : ClientPtr} {server : ServerState}
    (untouched : Untouched fd ptr server) {n m : Nat} {lineLengths chunkLengths : List Nat}
    (differs : m ≠ n) (lineFit : ∀ k ∈ n :: lineLengths, 14 ≤ k ∧ k < bufLen)
    (chunkFit : ∀ k ∈ m :: chunkLengths, 0 < k ∧ k < bufLen)
    (total : (m :: chunkLengths).sum = (n :: lineLengths).sum) :
    Misses fd ptr server (n :: lineLengths) (m :: chunkLengths) := by
  let stream := ((fragileLines n lineLengths).map CommandLine.bytes).flatten
  have lengths := fragileLines_length fun k member => (lineFit k member).1
  have size : stream.length = (m :: chunkLengths).sum := by
    rw [total, ← lengths, List.length_flatten, List.map_map]
    rfl
  have chunks : ((m :: chunkLengths).splitLengths stream).map List.length = m :: chunkLengths :=
    List.map_splitLengths_length _ _ size.ge
  have joined : ((m :: chunkLengths).splitLengths stream).flatten = stream :=
    List.flatten_splitLengths _ _ size.le
  obtain ⟨byLine, received, subscribed⟩ := untouched.receiveAll_fragileLines lineFit
  obtain ⟨byChunk, received', quiet⟩ := untouched.receiveAll_chunks
    (lineFit n List.mem_cons_self).1 differs chunks chunkFit joined
  exact ⟨_, _, lengths, chunks, joined, byLine, byChunk, received, received', subscribed, quiet⟩

/-- Unless the chunks are as long as the lines, there are lines whose subscription they miss. -/
theorem Untouched.misses {fd : Fd} {ptr : ClientPtr} {server : ServerState}
    (untouched : Untouched fd ptr server) {lineLengths chunkLengths : List Nat}
    (differ : chunkLengths ≠ lineLengths) (lineFit : ∀ k ∈ lineLengths, 14 ≤ k ∧ k < bufLen)
    (chunkFit : ∀ k ∈ chunkLengths, 0 < k ∧ k < bufLen)
    (total : chunkLengths.sum = lineLengths.sum) :
    Misses fd ptr server lineLengths chunkLengths := by
  induction lineLengths generalizing chunkLengths server with
  | nil =>
      cases chunkLengths with
      | nil => exact absurd rfl differ
      | cons m rest =>
          have positive := (chunkFit m List.mem_cons_self).1
          simp only [List.sum_cons, List.sum_nil] at total
          omega
  | cons n lineRest ih =>
      cases chunkLengths with
      | nil =>
          have enough := (lineFit n List.mem_cons_self).1
          simp only [List.sum_cons, List.sum_nil] at total
          omega
      | cons m chunkRest =>
          by_cases same : m = n
          · subst same
            rw [List.forall_mem_cons] at lineFit chunkFit
            have length := idleLine_length lineFit.1.1
            obtain ⟨buffer, received⟩ := server.received_line untouched.found (idleLine m)
              (by rw [length]; exact lineFit.1.2)
            have untouched' : Untouched fd ptr ⟨server.session.setTopics ptr (idleLine m).change,
                (idleLine m).leaves server.sMessage, buffer⟩ := by
              refine ⟨untouched.found, untouched.off, ?_⟩
              rw [Session.setTopics_clients_same, untouched.empty]
              rfl
            obtain ⟨lines, chunks, lineLengths, chunkLengths, stream, byLine, byChunk, read,
                read', missed⟩ := ih untouched' (fun same => differ (by rw [same])) lineFit.2
              chunkFit.2 (by simpa using total)
            refine ⟨idleLine m :: lines, (idleLine m).bytes :: chunks, ?_, ?_, ?_, byLine, byChunk,
              ?_, ?_, missed⟩
            · rw [List.map_cons, length, lineLengths]
            · rw [List.map_cons, chunkLengths]
              exact congrArg (· :: chunkRest) length
            · rw [List.map_cons, List.flatten_cons, List.flatten_cons, stream]
            · simp only [List.map_cons, ServerState.receiveAll, received, Option.bind_some, read]
            · simp only [ServerState.receiveAll, received, Option.bind_some, read']
          · exact untouched.misses_of_ne same lineFit chunkFit total

/-! ## Framing -/

/-- No command is shorter than 14 bytes. -/
theorem CommandLine.fourteen_le_length (line : CommandLine) : 14 ≤ line.length := by
  cases line with
  | subscribe spaces topic valid spaces' sf =>
      have enough := valid.1
      cases sf <;> simp [CommandLine.length, bytes, subscribeWord, oneLine, zeroLine] <;> omega
  | unsubscribe spaces topic valid =>
      have enough := valid.1
      simp [CommandLine.length, bytes, unsubscribeWord, subscribeWord]
      omega

theorem connectedServer_untouched : Untouched 5 0 connectedServer where
  found := by decide +kernel
  off := by decide +kernel
  empty := connectedServer_empty

/-- However a stream of lines is cut into chunks: streams with that cut are read as their lines
exactly when the chunks are the lines. -/
theorem framingIndependent_iff {lines : List CommandLine} {chunks : List (List UInt8)}
    (fit : ∀ line ∈ lines, line.length < bufLen)
    (returned : ∀ chunk ∈ chunks, chunk ≠ [] ∧ chunk.length < bufLen)
    (stream : chunks.flatten = (lines.map CommandLine.bytes).flatten) :
    FramingIndependent (lines.map CommandLine.length) (chunks.map List.length) ↔
      chunks = lines.map CommandLine.bytes := by
  have lineLengths : (lines.map CommandLine.bytes).map List.length =
      lines.map CommandLine.length := List.map_map
  constructor
  · intro independent
    by_contra differ
    have differ' : chunks.map List.length ≠ lines.map CommandLine.length := fun same =>
      differ (List.eq_iff_flatten_eq.mpr ⟨stream, same.trans lineLengths.symm⟩)
    have total : (chunks.map List.length).sum = (lines.map CommandLine.length).sum := by
      rw [← List.length_flatten, stream, List.length_flatten, lineLengths]
    obtain ⟨lines', chunks', lengths, lengths', stream', byLine, byChunk, received, received',
        subscribed, quiet⟩ := connectedServer_untouched.misses differ'
      (by simpa using fun line member => ⟨line.fourteen_le_length, fit line member⟩)
      (by simpa [List.length_pos_iff] using returned) total
    obtain ⟨trace, reached⟩ := connectedServer_reached
    obtain ⟨byLine', byChunk', read, read', same⟩ := independent _ _ _ _ 5 0 lines' chunks'
      sampleServer_initial reached connectedServer_untouched.found lengths lengths' stream'
    obtain rfl : byLine = byLine' := Option.some.inj (received.symm.trans read)
    obtain rfl : byChunk = byChunk' := Option.some.inj (received'.symm.trans read')
    have on := quiet.topicsOff ⟨[97], true⟩ (by rw [same, subscribed]; exact List.mem_singleton_self _)
    cases on
  · rintro rfl
    rw [lineLengths]
    exact framingIndependent_of_eq (by simpa using fit)

/-- A line that arrives in two pieces. -/
theorem framingIndependent_iff_sample :
    FramingIndependent ([sampleLine].map CommandLine.length)
        ([sampleLine.bytes.take 10, sampleLine.bytes.drop 10].map List.length) ↔
      [sampleLine.bytes.take 10, sampleLine.bytes.drop 10] =
        [sampleLine].map CommandLine.bytes :=
  framingIndependent_iff (by decide) (by decide) (by decide)

/-- Two lines that arrive together, `"subscribe t 1\n"` twice, subscribe the client to nothing. -/
theorem merged_lines_ignored :
    (∃ trace, (serverMachine fun _ _ _ => []).Run sampleServer trace connectedServer) ∧
      KeyedList.find Prod.fst 5 connectedServer.session.onlineClients = some (5, 0) ∧
      [sampleLine.bytes ++ sampleLine.bytes].flatten =
        ([sampleLine, sampleLine].map CommandLine.bytes).flatten ∧
      (sampleLine.bytes ++ sampleLine.bytes).length < bufLen ∧
      (connectedServer.receiveAll 5 ([sampleLine, sampleLine].map CommandLine.bytes)).map
        (fun server => (server.session.clients 0).topics) = some [⟨[116], true⟩] ∧
      (connectedServer.receiveAll 5 [sampleLine.bytes ++ sampleLine.bytes]).map
        (fun server => (server.session.clients 0).topics) = some [] :=
  ⟨connectedServer_reached, by decide +kernel, by decide, by decide, by decide +kernel,
    by decide +kernel⟩

end CommunicationProtocols.Server
