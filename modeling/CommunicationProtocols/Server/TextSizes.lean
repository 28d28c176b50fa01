import CommunicationProtocols.Server.Residue
import Mathlib.Algebra.Order.BigOperators.Group.List

/-!
# The sizes of the texts

`decode_udp_message` allocates a block for the text of the payload, and the server
prints the line for the subscribers into its buffer. Neither write is limited, so
that the sizes have to fit for every datagram. Two of them do not: the block of an
INT has no room for a sign in front of ten digits, and the line repeats the content
of a STRING behind an address, a topic and the separators.
-/

namespace CommunicationProtocols.Server

open Library

/-- The size of the block that is allocated for the payload. -/
def payloadBlock (buffer : ByteBuffer) : Nat :=
  if buffer 50 = 0 then 11
  else if buffer 50 = 1 then 20
  else if buffer 50 = 2 then 40
  else 1501

/-- The payload of the message and the line for its subscribers fit, each with its
terminator. -/
structure TextsFit (floatText : FloatText) (buffer : ByteBuffer) (sender : Sender)
    (lastByte : UInt8) : Prop where
  payload : (decodeUdpMessage floatText buffer lastByte).payload.length + 1 ≤ payloadBlock buffer
  line : (messageLine sender (decodeUdpMessage floatText buffer lastByte)).length + 1 ≤ bufLen

/-! ## The width of each part -/

/-- The number of digits in the address and the port of a sender. -/
def Sender.digits (sender : Sender) : Nat :=
  (sender.address.toList.map fun octet => Nat.log 10 octet.toNat + 1).sum +
    (Nat.log 10 sender.port.toNat + 1)

/-- The width of the topic of a STRING. A topic of 50 bytes runs on into the type
unless the byte behind it is zero. -/
def topicWidth (buffer : ByteBuffer) (lastByte : UInt8) : Nat :=
  if (buffer.string 0 50).length = 50 ∧ lastByte ≠ 0 then 57 else (buffer.string 0 50).length

/-- The content of a STRING, up to the first zero in the buffer. -/
def contentWidth (buffer : ByteBuffer) : Nat := (buffer.string 51 bufLen).length

/-- What the sizes allow: an INT with a minus sign has less than ten digits, and the
content of a STRING leaves room for the rest of the line. -/
structure SizesAllow (buffer : ByteBuffer) (sender : Sender) (lastByte : UInt8) : Prop where
  int : buffer 50 = 0 → buffer 51 = 1 → networkWord buffer 52 < 10 ^ 9
  block : buffer 50 = 3 → contentWidth buffer ≤ 1500
  line : buffer 50 = 3 →
    sender.digits + topicWidth buffer lastByte + contentWidth buffer ≤ 1531

/-- There is one dot less than there are texts. -/
theorem length_dot_intercalate {texts : List CString} (nonempty : texts ≠ []) :
    (dot.intercalate texts).length + 1 = (texts.map List.length).sum + texts.length := by
  induction texts with
  | nil => exact absurd rfl nonempty
  | cons first rest ih =>
      rw [List.map_cons, List.sum_cons, List.length_cons]
      rcases eq_or_ne rest [] with rfl | more
      · simp
      · have single : dot.length = 1 := rfl
        have later := ih more
        rw [List.intercalate_cons_of_ne_nil more, List.length_append, List.length_append]
        omega

/-- The text of a sender has four separators more than digits. -/
theorem Sender.length_text (sender : Sender) : sender.text.length = sender.digits + 4 := by
  have single : colon.length = 1 := rfl
  have nonempty : (sender.address.toList.map fun octet => Decimal.text octet.toNat) ≠ [] :=
    List.ne_nil_of_length_pos (by simp)
  have address := length_dot_intercalate nonempty
  simp only [List.map_map, Function.comp_def, Decimal.length_text, List.length_map,
    Vector.length_toList] at address
  simp only [Sender.text, Sender.digits, List.length_append, Decimal.length_text]
  omega

/-- A number below a power of ten has as few digits. -/
theorem log_succ_le {n k : Nat} (positive : 0 < k) (small : n < 10 ^ k) : Nat.log 10 n + 1 ≤ k := by
  rw [← Decimal.length_text]
  exact (Decimal.length_text_le_iff positive).mpr small

/-- An address and a port have at most seventeen digits. -/
theorem Sender.digits_le (sender : Sender) : sender.digits ≤ 17 := by
  have port := log_succ_le (show 0 < 5 by omega)
    (show sender.port.toNat < 10 ^ 5 from (UInt16.toNat_lt _).trans (by omega))
  have octets := List.sum_le_card_nsmul
    (sender.address.toList.map fun octet => Nat.log 10 octet.toNat + 1) 3 fun width member => by
      obtain ⟨octet, _, rfl⟩ := List.mem_map.mp member
      exact log_succ_le (by omega) ((UInt8.toNat_lt octet).trans (by omega))
  rw [List.length_map, Vector.length_toList, show 4 • 3 = 12 from rfl] at octets
  rw [Sender.digits]
  omega

/-- A copied topic has 51 bytes at most, and the type that may run on behind it. -/
theorem length_copiedTopic_le (buffer : ByteBuffer) (lastByte : UInt8) (type : CString) :
    (copiedTopic buffer lastByte type).length ≤ 51 + type.length := by
  have short : ((buffer.contents 50).takeWhile fun byte => byte ≠ 0).length ≤ 50 :=
    (List.takeWhile_sublist _).length_le.trans (by simp [ByteBuffer.contents])
  simp only [copiedTopic]
  split
  · rw [List.length_append, List.length_cons]
    omega
  · omega

/-- The width of the topic of a STRING. -/
theorem length_copiedTopic_string (buffer : ByteBuffer) (lastByte : UInt8) :
    (copiedTopic buffer lastByte stringType).length = topicWidth buffer lastByte := by
  simp only [copiedTopic, topicWidth, ByteBuffer.string, List.drop_zero]
  split
  case isTrue full =>
    have type : stringType.length = 6 := rfl
    rw [List.length_append, List.length_cons]
    omega
  case isFalse => rfl

/-- A line has fourteen bytes besides the digits and the texts of the message. -/
theorem length_messageLine (sender : Sender) (message : UdpMessage) :
    (messageLine sender message).length = sender.digits + message.topic.length +
      message.type.length + message.payload.length + 14 := by
  have dash : separator.length = 3 := rfl
  have last : newline.length = 1 := rfl
  simp only [messageLine, List.length_append, Sender.length_text]
  omega

/-! ## The payloads -/

/-- The text of an INT is too long exactly for a minus sign in front of ten digits. -/
theorem length_intPayload_le_iff (buffer : ByteBuffer) :
    (intPayload buffer).length ≤ 10 ↔ (buffer 51 = 1 → networkWord buffer 52 < 10 ^ 9) := by
  have bound := networkWord_lt buffer 52
  have positive := @Decimal.length_text_le_iff (networkWord buffer 52) 10 (by omega)
  have negative := @Decimal.length_text_le_iff (networkWord buffer 52) 9 (by omega)
  have unsigned : (networkWord buffer 52 : Int).natAbs = networkWord buffer 52 := rfl
  simp only [intPayload, Decimal.intText]
  by_cases sign : buffer 51 = 1
  · rw [if_pos sign, Int.natAbs_neg, unsigned, imp_iff_right sign]
    split
    case isTrue =>
      rw [List.length_cons]
      omega
    case isFalse => omega
  · rw [if_neg sign, if_neg (by omega), unsigned]
    exact iff_of_true (positive.mpr (by omega)) fun minus => absurd minus sign

/-- The text of a SHORT_REAL has six bytes at most. -/
theorem length_shortRealPayload_le (buffer : ByteBuffer) :
    (shortRealPayload buffer).length ≤ 6 := by
  have high := (buffer 51).toNat_lt
  have low := (buffer 52).toNat_lt
  have whole := (@Decimal.length_text_le_iff
    (((buffer 51).toNat * 2 ^ 8 + (buffer 52).toNat) / 100) 3 (by omega)).mpr (by omega)
  simp only [shortRealPayload, List.length_append, List.length_cons, List.length_nil]
  omega

/-! ## When the texts fit -/

variable {floatText : FloatText} {buffer : ByteBuffer} {sender : Sender} {lastByte : UInt8}

/-- Numbers are short enough for the line of any sender and topic. -/
theorem line_fits_of_short {type payload : CString}
    (decoded : decodePayload floatText buffer = (type, payload)) (shortType : type.length ≤ 10)
    (shortPayload : payload.length ≤ 11) :
    (messageLine sender (decodeUdpMessage floatText buffer lastByte)).length + 1 ≤ bufLen := by
  have digits := sender.digits_le
  have topic := length_copiedTopic_le buffer lastByte type
  have line := length_messageLine sender (decodeUdpMessage floatText buffer lastByte)
  simp only [decodeUdpMessage, decoded] at line ⊢
  rw [bufLen]
  omega

/-- The texts of an INT fit unless the number is negative and has ten digits. -/
theorem textsFit_int (type : buffer 50 = 0) : TextsFit floatText buffer sender lastByte ↔
    (buffer 51 = 1 → networkWord buffer 52 < 10 ^ 9) := by
  have decoded := @decodePayload_int floatText buffer type
  have block : payloadBlock buffer = 11 := if_pos type
  rw [← length_intPayload_le_iff]
  constructor
  · intro fit
    have inBlock := fit.payload
    simp only [decodeUdpMessage, decoded, block] at inBlock
    omega
  · intro short
    refine ⟨?_, line_fits_of_short decoded (by decide) (by omega)⟩
    simp only [decodeUdpMessage, decoded, block]
    omega

/-- The texts of a SHORT_REAL always fit. -/
theorem textsFit_shortReal (type : buffer 50 = 1) : TextsFit floatText buffer sender lastByte := by
  have decoded := @decodePayload_shortReal floatText buffer type
  have short := length_shortRealPayload_le buffer
  have block : payloadBlock buffer = 20 := by
    rw [payloadBlock, type]
    rfl
  refine ⟨?_, line_fits_of_short decoded (by decide) (by omega)⟩
  simp only [decodeUdpMessage, decoded, block]
  omega

/-- The texts of a STRING fit as long as the content and the line are not too long. -/
theorem textsFit_string (type : buffer 50 = 3) : TextsFit floatText buffer sender lastByte ↔
    contentWidth buffer ≤ 1500 ∧
      sender.digits + topicWidth buffer lastByte + contentWidth buffer ≤ 1531 := by
  have block : payloadBlock buffer = 1501 := by
    rw [payloadBlock, type]
    rfl
  have payload : (decodeUdpMessage floatText buffer lastByte).payload.length =
      contentWidth buffer := by
    simp only [decodeUdpMessage, decodePayload_string type, contentWidth]
  have line : (messageLine sender (decodeUdpMessage floatText buffer lastByte)).length =
      sender.digits + topicWidth buffer lastByte + 6 + contentWidth buffer + 14 := by
    rw [length_messageLine, payload]
    simp only [decodeUdpMessage, decodePayload_string type, length_copiedTopic_string]
    rfl
  have limit : bufLen = 1552 := rfl
  constructor
  · rintro ⟨inBlock, inBuffer⟩
    rw [payload, block] at inBlock
    rw [line, limit] at inBuffer
    omega
  · rintro ⟨inBlock, inBuffer⟩
    refine ⟨?_, ?_⟩
    · rw [payload, block]
      omega
    · rw [line, limit]
      omega

/-- For a datagram of one of the three types, received over any residue: its texts
fit if and only if the sizes of what it holds allow it. -/
theorem texts_fit_iff (floatText : FloatText) (residue : ByteBuffer) (datagram : List UInt8)
    (sender : Sender) (lastByte : UInt8)
    (kind : residue.receive datagram 50 = 0 ∨ residue.receive datagram 50 = 1 ∨
      residue.receive datagram 50 = 3) :
    TextsFit floatText (residue.receive datagram) sender lastByte ↔
      SizesAllow (residue.receive datagram) sender lastByte := by
  generalize residue.receive datagram = buffer at kind ⊢
  have notString {type : UInt8} (here : buffer 50 = type) (other : type ≠ 3) : buffer 50 ≠ 3 :=
    fun string => other (here.symm.trans string)
  rcases kind with int | shortReal | string
  · rw [textsFit_int int]
    constructor
    · intro short
      exact ⟨fun _ => short, fun string => absurd string (notString int (by decide)),
        fun string => absurd string (notString int (by decide))⟩
    · exact fun allow => allow.int int
  · refine iff_of_true (textsFit_shortReal shortReal) ⟨fun int => ?_,
      fun string => absurd string (notString shortReal (by decide)),
      fun string => absurd string (notString shortReal (by decide))⟩
    exact absurd (int.symm.trans shortReal) (by decide)
  · rw [textsFit_string string]
    constructor
    · rintro ⟨inBlock, inBuffer⟩
      exact ⟨fun int => absurd string (notString int (by decide)), fun _ => inBlock,
        fun _ => inBuffer⟩
    · exact fun allow => ⟨allow.block string, allow.line string⟩

/-- A STRING with a full topic and full content never fits the buffer. -/
theorem full_string_overflows (type : buffer 50 = 3) (topic : (buffer.string 0 50).length = 50)
    (content : contentWidth buffer = 1500) : ¬ TextsFit floatText buffer sender lastByte := by
  intro fit
  have line := ((textsFit_string type).mp fit).2
  have width : 50 ≤ topicWidth buffer lastByte := by
    rw [topicWidth, topic]
    split <;> omega
  omega

/-- The datagram of the INT -1234567890 in the sample payloads. -/
def largeNegativeDatagram : List UInt8 :=
  ascii "a_large_negative_value" ++ List.replicate 28 0 ++ [0, 1, 0x49, 0x96, 0x02, 0xd2]

theorem texts_fit_iff_sample :
    TextsFit exactFloatText (ByteBuffer.receive (fun _ => 0) largeNegativeDatagram)
        sampleSender 0 ↔
      SizesAllow (ByteBuffer.receive (fun _ => 0) largeNegativeDatagram) sampleSender 0 :=
  texts_fit_iff exactFloatText (fun _ => 0) largeNegativeDatagram sampleSender 0
    (by decide +kernel)

/-- Eleven characters and the terminator do not fit the block of eleven bytes. -/
theorem large_negative_int_overflows :
    largeNegativeDatagram.length ≤ 50 + 1 + 1500 ∧
      (decodeUdpMessage exactFloatText (ByteBuffer.receive (fun _ => 0) largeNegativeDatagram)
        0).payload = ascii "-1234567890" ∧
      ¬ TextsFit exactFloatText (ByteBuffer.receive (fun _ => 0) largeNegativeDatagram)
        sampleSender 0 := by
  have payload : (decodeUdpMessage exactFloatText
      (ByteBuffer.receive (fun _ => 0) largeNegativeDatagram) 0).payload =
        ascii "-1234567890" := by
    decide +kernel
  refine ⟨by decide, payload, fun fit => ?_⟩
  have block := fit.payload
  rw [payload] at block
  exact absurd block (by decide +kernel)

end CommunicationProtocols.Server
