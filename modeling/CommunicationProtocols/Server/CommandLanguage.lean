import CommunicationProtocols.Server.Loop

/-!
# The command language

The words of a command are checked one by one while they are copied into the
message structure, and their number only in one place. A command that ends too
early is therefore acted on with what an earlier command left in the structure,
and a topic is taken as it comes.
-/

namespace CommunicationProtocols.Server

open Library

/-- A topic of the command language. -/
def LanguageTopic (topic : CString) : Prop :=
  1 ≤ topic.length ∧ topic.length ≤ 50 ∧ 10 ∉ topic

instance (topic : CString) : Decidable (LanguageTopic topic) :=
  inferInstanceAs (Decidable (_ ∧ _ ∧ _))

/-- The command language, on the tokens of a string. -/
inductive InLanguage : List CString → Prop where
  | subscribe {topic : CString} (valid : LanguageTopic topic) (sf : Bool) :
      InLanguage [subscribeWord, topic, if sf then oneLine else zeroLine]
  | unsubscribe {topic : CString} (valid : LanguageTopic topic) :
      InLanguage [unsubscribeWord, topic ++ [10]]

/-- What the server does about a command it has accepted. -/
inductive Action where
  | subscribe (topic : CString) (sf : Bool)
  | unsubscribe (topic : CString)
deriving DecidableEq

/-- The change of a client's topics an action stands for. -/
def Action.event (fd : Fd) : Action → Event CString
  | .subscribe topic sf => .subscribe fd topic sf
  | .unsubscribe topic => .unsubscribe fd topic

/-- What the server does about a message. -/
def actionOf (message : ServerMessage) : Action :=
  if message.type = 115 then .subscribe message.topic message.sf
  else .unsubscribe (chopTopic message).topic

/-- What the server does about a string, with the message an earlier command left. -/
def actionOn (before : ServerMessage) (string : CString) : Option Action :=
  if (decodeMessage before string).accepted then some (actionOf (decodeMessage before string).message)
  else none

/-- The command branch of the loop acts on what it received in this way. -/
theorem ServerState.meaning_received (floatText : FloatText) (server : ServerState) (fd : Fd)
    {bytes : List UInt8} (nonempty : bytes ≠ []) :
    server.meaning floatText (.received fd bytes) =
      (actionOn server.sMessage (((server.buffer.clear bufLen).receive bytes).string 0 bufLen)).map
        (Action.event fd) := by
  simp only [meaning, actionOn, actionOf, if_neg nonempty]
  generalize decodeMessage server.sMessage
    (((server.buffer.clear bufLen).receive bytes).string 0 bufLen) = decoded
  obtain ⟨message, nrParam, _ | _⟩ := decoded
  · rfl
  · dsimp only
    rw [if_neg (by decide), if_pos rfl]
    split <;> rfl

/-- The decoder accepts a string exactly if it is in the language, and what the
server does about it does not depend on earlier commands. -/
structure DecodesLanguage (string : CString) : Prop where
  accepts : ∀ before, (actionOn before string).isSome = true ↔
    InLanguage (Tokens.tokens blank string)
  determined : ∀ before before' action action', actionOn before string = some action →
    actionOn before' string = some action' → action = action'

/-! ## Commands of each shape -/

section

variable {before : ServerMessage} {string word topic flag : CString} {rest : List CString}

theorem subscribeWord_type : subscribeWord.head? = some 115 := rfl

theorem unsubscribeWord_type : unsubscribeWord.head? = some 117 := rfl

/-- A string without words is acted on with the whole message that is there. -/
theorem actionOn_empty (tokens : Tokens.tokens blank string = []) :
    (actionOn before string).isSome = true := by
  simp [actionOn, decodeMessage, tokens, decodeLoop]

/-- A command word alone is acted on with the topic that is there. -/
theorem actionOn_word (known : word = subscribeWord ∨ word = unsubscribeWord)
    (tokens : Tokens.tokens blank string = [word]) :
    (actionOn before string).isSome = true := by
  rcases known with rfl | rfl
  all_goals simp [actionOn, decodeMessage, tokens, decodeLoop]

/-- A line that starts with another word does nothing. -/
theorem actionOn_unknown (unknown : ¬ (word = subscribeWord ∨ word = unsubscribeWord))
    (tokens : Tokens.tokens blank string = word :: rest) : actionOn before string = none := by
  have rejected : word ≠ subscribeWord ∧ word ≠ unsubscribeWord := not_or.mp unknown
  simp [actionOn, decodeMessage, tokens, decodeLoop, rejected]

/-- A subscription without a flag is rejected. -/
theorem actionOn_flagless (tokens : Tokens.tokens blank string = [subscribeWord, topic]) :
    actionOn before string = none := by
  simp [actionOn, decodeMessage, tokens, decodeLoop, subscribeWord_type]

/-- The topic of an unsubscription is what is in front of its last byte. -/
theorem actionOn_unsubscribe (tokens : Tokens.tokens blank string = [unsubscribeWord, topic]) :
    actionOn before string =
      some (.unsubscribe (chopTopic ⟨117, topic, before.sf⟩).topic) := by
  simp [actionOn, actionOf, decodeMessage, tokens, decodeLoop, unsubscribeWord_type]

/-- A subscription with a flag is acted on whatever its topic is. -/
theorem actionOn_subscribe (sf : Bool)
    (tokens : Tokens.tokens blank string =
      [subscribeWord, topic, if sf then oneLine else zeroLine]) :
    actionOn before string = some (.subscribe topic sf) := by
  cases sf
  all_goals
    simp [actionOn, actionOf, decodeMessage, tokens, decodeLoop, subscribeWord_type, oneLine,
      zeroLine]

/-- A third word is a flag of a subscription, and the last word. -/
theorem actionOn_long (tokens : Tokens.tokens blank string = word :: topic :: flag :: rest)
    (other : ∀ sf : Bool, word :: topic :: flag :: rest ≠
      [subscribeWord, topic, if sf then oneLine else zeroLine]) :
    actionOn before string = none := by
  by_cases unknown : ¬ (word = subscribeWord ∨ word = unsubscribeWord)
  · exact actionOn_unknown unknown tokens
  · by_cases isFlag : flag = oneLine ∨ flag = zeroLine
    · obtain ⟨sf, rfl⟩ : ∃ sf : Bool, flag = if sf then oneLine else zeroLine :=
        isFlag.elim (fun one => ⟨true, one⟩) fun zero => ⟨false, zero⟩
      rcases not_not.mp unknown with rfl | rfl
      · obtain ⟨next, later, rfl⟩ := List.exists_cons_of_ne_nil fun last : rest = [] =>
          other sf (by rw [last])
        cases sf
        all_goals
          simp [actionOn, decodeMessage, tokens, decodeLoop, subscribeWord_type, oneLine, zeroLine]
      · cases sf
        all_goals
          simp [actionOn, decodeMessage, tokens, decodeLoop, unsubscribeWord_type, oneLine, zeroLine]
    · have rejected : flag ≠ oneLine ∧ flag ≠ zeroLine := not_or.mp isFlag
      rcases not_not.mp unknown with rfl | rfl
      all_goals simp [actionOn, decodeMessage, tokens, decodeLoop, rejected]

end

/-! ## The exact condition -/

/-- Commands that do not fall between the checks: there is a word, a command word
is not alone, a subscription with a flag has a topic that fits, and an
unsubscription has one in front of its newline. -/
structure WellCut (tokens : List CString) : Prop where
  nonempty : tokens ≠ []
  subscribeAlone : tokens ≠ [subscribeWord]
  unsubscribeAlone : tokens ≠ [unsubscribeWord]
  subscribe : ∀ (topic : CString) (sf : Bool),
    tokens = [subscribeWord, topic, if sf then oneLine else zeroLine] → LanguageTopic topic
  unsubscribe : ∀ argument : CString, tokens = [unsubscribeWord, argument] →
    ∃ topic, argument = topic ++ [10] ∧ LanguageTopic topic

/-- A command of the language means the same after any other command. -/
theorem actionOn_of_inLanguage {string : CString}
    (member : InLanguage (Tokens.tokens blank string)) :
    ∃ action, ∀ before, actionOn before string = some action := by
  generalize shape : Tokens.tokens blank string = tokens at member
  cases member with
  | @subscribe topic valid sf => exact ⟨_, fun before => actionOn_subscribe sf shape⟩
  | @unsubscribe topic valid =>
      refine ⟨.unsubscribe topic, fun before => ?_⟩
      rw [actionOn_unsubscribe shape, chopTopic_newline]

/-- A string outside the language is rejected, unless it falls between the checks. -/
theorem actionOn_of_wellCut {before : ServerMessage} {string : CString}
    (wellCut : WellCut (Tokens.tokens blank string))
    (other : ¬ InLanguage (Tokens.tokens blank string)) : actionOn before string = none := by
  generalize shape : Tokens.tokens blank string = tokens at wellCut other
  match tokens with
  | [] => exact absurd rfl wellCut.nonempty
  | [word] =>
      refine actionOn_unknown (fun known => ?_) shape
      rcases known with rfl | rfl
      · exact wellCut.subscribeAlone rfl
      · exact wellCut.unsubscribeAlone rfl
  | [word, argument] =>
      by_cases isSubscribe : word = subscribeWord
      · rw [isSubscribe] at shape
        exact actionOn_flagless shape
      · refine actionOn_unknown (fun known => ?_) shape
        obtain rfl := known.resolve_left isSubscribe
        obtain ⟨topic, rfl, valid⟩ := wellCut.unsubscribe argument rfl
        exact other (.unsubscribe valid)
  | word :: topic :: flag :: rest =>
      refine actionOn_long shape fun sf same => ?_
      rw [same] at wellCut other
      exact other (.subscribe (wellCut.subscribe topic sf rfl) sf)

/-- A string is decoded by the language exactly if it does not fall between the checks. -/
theorem decodesLanguage_iff (string : CString) :
    DecodesLanguage string ↔ WellCut (Tokens.tokens blank string) := by
  constructor
  · intro decodes
    have accepted {tokens : List CString} (shape : Tokens.tokens blank string = tokens)
        (acts : ∀ before, (actionOn before string).isSome = true) : InLanguage tokens :=
      shape ▸ (decodes.accepts ⟨0, [], false⟩).mp (acts _)
    constructor
    case nonempty => exact fun shape => by cases accepted shape fun _ => actionOn_empty shape
    case subscribeAlone =>
      exact fun shape => by cases accepted shape fun _ => actionOn_word (.inl rfl) shape
    case unsubscribeAlone =>
      exact fun shape => by cases accepted shape fun _ => actionOn_word (.inr rfl) shape
    case subscribe =>
      intro topic sf shape
      have member := accepted shape fun before => by rw [actionOn_subscribe sf shape]; rfl
      generalize (if sf then oneLine else zeroLine) = flag at member
      cases member with
      | subscribe valid => exact valid
    case unsubscribe =>
      intro argument shape
      have member := accepted shape fun before => by rw [actionOn_unsubscribe shape]; rfl
      cases member with
      | unsubscribe valid => exact ⟨_, rfl, valid⟩
  · intro wellCut
    by_cases member : InLanguage (Tokens.tokens blank string)
    · obtain ⟨action, acts⟩ := actionOn_of_inLanguage member
      refine ⟨fun before => ?_, fun before before' action action' first second => ?_⟩
      · rw [acts before]
        exact iff_of_true rfl member
      · rw [acts before] at first
        rw [acts before'] at second
        exact Option.some_inj.mp (first.symm.trans second)
    · have rejected (before : ServerMessage) : actionOn before string = none :=
        actionOn_of_wellCut wellCut member
      refine ⟨fun before => ?_, fun before before' action action' first second => ?_⟩
      · rw [rejected before]
        exact iff_of_false (by decide) member
      · rw [rejected before] at first
        cases first

/-- `unsubscribe` with an empty topic: a blank and a newline follow the word. -/
theorem empty_topic_accepted : ¬ DecodesLanguage (unsubscribeWord ++ [blank, 10]) := by
  intro decodes
  have shape : Tokens.tokens blank (unsubscribeWord ++ [blank, 10]) = [unsubscribeWord, [10]] := by
    decide
  have member := (decodes.accepts ⟨0, [], false⟩).mp (by rw [actionOn_unsubscribe shape]; rfl)
  rw [shape] at member
  generalize argumentIs : ([10] : CString) = argument at member
  cases member with
  | @unsubscribe topic valid =>
      have length := congrArg List.length argumentIs
      simp only [List.length_cons, List.length_append, List.length_nil] at length
      have nonempty := valid.1
      omega

end CommunicationProtocols.Server
