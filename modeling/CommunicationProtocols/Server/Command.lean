import CommunicationProtocols.Library.Tokens
import CommunicationProtocols.Server.Session

/-!
# Commands

`decode_message` takes the received bytes apart with `strtok` and writes what it
finds into the one message structure of the server, also when it then rejects
the command. A token that does not fit the `topic` array is kept whole here;
what the source does with one is the subject of the overruns.
-/

namespace CommunicationProtocols.Server

open Library

/-- `server_message`. The source has `char[51]` for the topic, and copies a token
into it unchecked. -/
structure ServerMessage where
  type : UInt8
  topic : CString
  sf : Bool
deriving DecidableEq

/-- The blank that separates tokens. -/
def blank : UInt8 := 32

/-- `"subscribe"`. -/
def subscribeWord : CString := [115, 117, 98, 115, 99, 114, 105, 98, 101]

/-- `"unsubscribe"`. -/
def unsubscribeWord : CString := [117, 110] ++ subscribeWord

/-- `"1\n"`. -/
def oneLine : CString := [49, 10]

/-- `"0\n"`. -/
def zeroLine : CString := [48, 10]

/-- Where the loop of `decode_message` has ended. -/
structure Decoded where
  message : ServerMessage
  nrParam : Nat
  accepted : Bool

/-- The loop of `decode_message` over the tokens that are left. -/
def decodeLoop (message : ServerMessage) (nrParam : Nat) : List CString → Decoded
  | [] => ⟨message, nrParam, true⟩
  | token :: rest =>
      if nrParam = 1 then
        if token ≠ subscribeWord ∧ token ≠ unsubscribeWord then ⟨message, nrParam, false⟩
        else decodeLoop { message with type := token.headD 0 } (nrParam + 1) rest
      else if nrParam = 2 then
        decodeLoop { message with topic := token } (nrParam + 1) rest
      else if nrParam = 3 then
        if token ≠ oneLine ∧ token ≠ zeroLine then ⟨message, nrParam, false⟩
        else
          let message := { message with sf := decide (token = oneLine) }
          if message.type = 117 then ⟨message, nrParam, false⟩
          else decodeLoop message (nrParam + 1) rest
      else
        ⟨message, nrParam, false⟩

/-- `decode_message`. -/
def decodeMessage (message : ServerMessage) (string : CString) : Decoded :=
  let decoded := decodeLoop message 1 (Tokens.tokens blank string)
  if decoded.nrParam = 3 ∧ decoded.message.type = 115 then
    { decoded with accepted := false }
  else
    decoded

/-- The chop of the last character before an unsubscribe. The byte in front of
the `topic` array is the type. -/
def chopTopic (message : ServerMessage) : ServerMessage :=
  match message.topic with
  | [] => { message with type := 0 }
  | first :: rest => { message with topic := (first :: rest).dropLast }

/-! ## Well-formed command lines -/

/-- A topic as a command line carries it. -/
def ValidTopic (topic : CString) : Prop :=
  1 ≤ topic.length ∧ topic.length ≤ 49 ∧ 0 ∉ topic ∧ blank ∉ topic ∧ 10 ∉ topic

instance (topic : CString) : Decidable (ValidTopic topic) := inferInstanceAs (Decidable (_ ∧ _))

/-- A command line: one blank more than `spaces` stands between the words. -/
inductive CommandLine where
  | subscribe (spaces : Nat) (topic : CString) (valid : ValidTopic topic) (spaces' : Nat)
      (sf : Bool)
  | unsubscribe (spaces : Nat) (topic : CString) (valid : ValidTopic topic)

namespace CommandLine

/-- The topic a line names. -/
def topic : CommandLine → CString
  | .subscribe _ topic _ _ _ => topic
  | .unsubscribe _ topic _ => topic

/-- The bytes of a line. -/
def bytes : CommandLine → List UInt8
  | .subscribe spaces topic _ spaces' sf =>
      subscribeWord ++ List.replicate (spaces + 1) blank ++ topic ++
        List.replicate (spaces' + 1) blank ++ if sf then oneLine else zeroLine
  | .unsubscribe spaces topic _ =>
      unsubscribeWord ++ List.replicate (spaces + 1) blank ++ topic ++ [10]

/-- What the line does to a topic list. -/
def change : CommandLine → List Topic → List Topic
  | .subscribe _ topic _ _ sf => addTopic topic sf
  | .unsubscribe _ topic _ => removeTopic topic

end CommandLine

/-- The message after a line has been decoded. -/
def CommandLine.message (before : ServerMessage) : CommandLine → ServerMessage
  | .subscribe _ topic _ _ sf => ⟨115, topic, sf⟩
  | .unsubscribe _ topic _ => ⟨117, topic ++ [10], before.sf⟩

/-- A word with blanks behind it is the first token. -/
theorem tokens_word_separators {word : List UInt8} (count : Nat) (rest : List UInt8)
    (nonempty : word ≠ []) (whole : blank ∉ word) :
    Tokens.tokens blank (word ++ List.replicate (count + 1) blank ++ rest) =
      word :: Tokens.tokens blank rest := by
  rw [List.append_assoc, List.replicate_succ, List.cons_append,
    Tokens.tokens_word_separator _ nonempty whole, Tokens.tokens_separators]

/-- A valid topic is not empty. -/
theorem ValidTopic.ne_nil {topic : CString} (valid : ValidTopic topic) : topic ≠ [] := by
  rintro rfl
  exact absurd valid.1 (by decide)

/-- The tokens of a line. -/
theorem CommandLine.tokens_bytes (line : CommandLine) :
    Tokens.tokens blank line.bytes = match line with
      | .subscribe _ topic _ _ sf => [subscribeWord, topic, if sf then oneLine else zeroLine]
      | .unsubscribe _ topic _ => [unsubscribeWord, topic ++ [10]] := by
  cases line with
  | subscribe spaces topic valid spaces' sf =>
      have split : bytes (.subscribe spaces topic valid spaces' sf) =
          subscribeWord ++ List.replicate (spaces + 1) blank ++
            (topic ++ List.replicate (spaces' + 1) blank ++ if sf then oneLine else zeroLine) := by
        simp only [bytes, List.append_assoc]
      rw [split, tokens_word_separators _ _ (by decide) (by decide),
        tokens_word_separators _ _ valid.ne_nil valid.2.2.2.1]
      cases sf <;> rw [Tokens.tokens_word (by decide) (by decide)]
  | unsubscribe spaces topic valid =>
      have last : blank ∉ topic ++ [10] := by
        simpa [valid.2.2.2.1] using show blank ≠ 10 by decide
      rw [bytes, List.append_assoc,
        tokens_word_separators _ _ (by decide) (by decide), Tokens.tokens_word (by simp) last]

/-- A well-formed line is accepted, whatever the message held before. -/
theorem CommandLine.decode_bytes (before : ServerMessage) (line : CommandLine) :
    (decodeMessage before line.bytes).accepted = true ∧
      (decodeMessage before line.bytes).message = line.message before := by
  unfold decodeMessage
  rw [line.tokens_bytes]
  cases line with
  | subscribe spaces topic valid spaces' sf =>
      have type : subscribeWord.head? = some 115 := by decide
      cases sf <;> simp [decodeLoop, message, type, oneLine, zeroLine]
  | unsubscribe spaces topic valid =>
      have type : unsubscribeWord.head? = some 117 := by decide
      simp [decodeLoop, message, type]

/-- The chop takes the newline off an unsubscribed topic. -/
theorem chopTopic_newline (type : UInt8) (topic : CString) (sf : Bool) :
    chopTopic ⟨type, topic ++ [10], sf⟩ = ⟨type, topic, sf⟩ := by
  cases topic with
  | nil => rfl
  | cons first rest =>
      have chopped : (first :: rest ++ [10]).dropLast = first :: rest := List.dropLast_concat
      exact congrArg (fun topic => (⟨type, topic, sf⟩ : ServerMessage)) chopped

end CommunicationProtocols.Server
