import CommunicationProtocols.Library.ByteBuffer
import CommunicationProtocols.Library.Decimal
import CommunicationProtocols.Server.Session

/-!
# Datagrams

`decode_udp_message` reads the shared buffer from its start, whatever the length
of the datagram was. Texts of floating-point numbers are made by `printf`; they
are a parameter of the model, together with what is relied on about them.
-/

namespace CommunicationProtocols.Server

open Library

/-- `BUFLEN`. -/
def bufLen : Nat := 1552

/-- `udp_message_node`. -/
structure UdpMessage where
  topic : CString
  type : CString
  payload : CString
deriving DecidableEq

/-- The text of `num / pow(10, exponent)` under `"%lf"`, negated on request; the
exponent is the byte of the datagram, a signed `char`. -/
abbrev FloatText := (negative : Bool) → (num : Nat) → (exponent : UInt8) → CString

/-- A text with a minus sign in front on request. -/
def signed (negative : Bool) (text : CString) : CString := if negative then 45 :: text else text

/-- What is relied on about floating-point texts: zero has one text, and whole
numbers and tenths of 32-bit numbers are printed exactly. -/
structure FloatText.Faithful (floatText : FloatText) : Prop where
  zero : ∀ negative exponent, floatText negative 0 exponent = floatText negative 0 0
  whole : ∀ negative num, num < 2 ^ 32 → floatText negative num 0 =
    signed negative (Decimal.text num ++ [46, 48, 48, 48, 48, 48, 48])
  tenths : ∀ negative num, num < 2 ^ 32 → floatText negative num 1 =
    signed negative
      (Decimal.text (num / 10) ++ [46, Decimal.digit (num % 10), 48, 48, 48, 48, 48])

/-- `is_valid_udp_message`. -/
def isValidUdpMessage (buffer : ByteBuffer) : Bool :=
  decide (buffer 50 = 0 ∨ buffer 50 = 1 ∨ buffer 50 = 2 ∨ buffer 50 = 3)

/-- A 32-bit number in network byte order. -/
def networkWord (buffer : ByteBuffer) (offset : Nat) : Nat :=
  (buffer offset).toNat * 2 ^ 24 + (buffer (offset + 1)).toNat * 2 ^ 16 +
    (buffer (offset + 2)).toNat * 2 ^ 8 + (buffer (offset + 3)).toNat

/-- A word of a datagram depends on its four bytes. -/
theorem networkWord_congr {buffer buffer' : ByteBuffer} {offset : Nat}
    (same : ∀ i, offset ≤ i → i < offset + 4 → buffer' i = buffer i) :
    networkWord buffer' offset = networkWord buffer offset := by
  have first := same offset (by omega) (by omega)
  have second := same (offset + 1) (by omega) (by omega)
  have third := same (offset + 2) (by omega) (by omega)
  have fourth := same (offset + 3) (by omega) (by omega)
  simp only [networkWord, first, second, third, fourth]

/-- The text of an INT payload. -/
def intPayload (buffer : ByteBuffer) : CString :=
  let num : Int := networkWord buffer 52
  Decimal.intText (if buffer 51 = 1 then -num else num)

/-- The text of a SHORT_REAL payload, a number of hundredths under `"%.2f"`. -/
def shortRealPayload (buffer : ByteBuffer) : CString :=
  let num := (buffer 51).toNat * 2 ^ 8 + (buffer 52).toNat
  Decimal.text (num / 100) ++ [46, Decimal.digit (num / 10 % 10), Decimal.digit (num % 10)]

/-- The text of a FLOAT payload; the sign byte is a signed `char`. -/
def floatPayload (floatText : FloatText) (buffer : ByteBuffer) : CString :=
  floatText (decide (0 < buffer 51 ∧ buffer 51 < 128)) (networkWord buffer 52) (buffer 56)

/-- `"INT"`. -/
def intType : CString := [73, 78, 84]

/-- `"SHORT_REAL"`. -/
def shortRealType : CString := [83, 72, 79, 82, 84, 95, 82, 69, 65, 76]

/-- `"FLOAT"`. -/
def floatType : CString := [70, 76, 79, 65, 84]

/-- `"STRING"`. -/
def stringType : CString := [83, 84, 82, 73, 78, 71]

/-- The type and the payload of a message. -/
def decodePayload (floatText : FloatText) (buffer : ByteBuffer) : CString × CString :=
  if buffer 50 = 0 then (intType, intPayload buffer)
  else if buffer 50 = 1 then (shortRealType, shortRealPayload buffer)
  else if buffer 50 = 2 then (floatType, floatPayload floatText buffer)
  else (stringType, buffer.string 51 bufLen)

/-- A datagram of type 0 is an INT. -/
theorem decodePayload_int {floatText : FloatText} {buffer : ByteBuffer} (type : buffer 50 = 0) :
    decodePayload floatText buffer = (intType, intPayload buffer) := by
  simp [decodePayload, type]

/-- A datagram of type 1 is a SHORT_REAL. -/
theorem decodePayload_shortReal {floatText : FloatText} {buffer : ByteBuffer}
    (type : buffer 50 = 1) :
    decodePayload floatText buffer = (shortRealType, shortRealPayload buffer) := by
  simp [decodePayload, type]

/-- A datagram of type 2 is a FLOAT. -/
theorem decodePayload_float {floatText : FloatText} {buffer : ByteBuffer} (type : buffer 50 = 2) :
    decodePayload floatText buffer = (floatType, floatPayload floatText buffer) := by
  simp [decodePayload, type]

/-- A datagram of type 3 is a STRING. -/
theorem decodePayload_string {floatText : FloatText} {buffer : ByteBuffer} (type : buffer 50 = 3) :
    decodePayload floatText buffer = (stringType, buffer.string 51 bufLen) := by
  simp [decodePayload, type]

/-- The string in the `topic` array after `strncpy` of 50 bytes: `lastByte` is what
the memory of the node held in the last byte of the array, behind which the `type`
array follows. -/
def copiedTopic (buffer : ByteBuffer) (lastByte : UInt8) (type : CString) : CString :=
  let copied := (buffer.contents 50).takeWhile fun byte => byte ≠ 0
  if copied.length = 50 ∧ lastByte ≠ 0 then copied ++ lastByte :: type else copied

/-- `decode_udp_message`. -/
def decodeUdpMessage (floatText : FloatText) (buffer : ByteBuffer) (lastByte : UInt8) :
    UdpMessage :=
  let payload := decodePayload floatText buffer
  ⟨copiedTopic buffer lastByte payload.1, payload.1, payload.2⟩

/-- The address and port a datagram came from. -/
structure Sender where
  address : Vector UInt8 4
  port : UInt16

/-- `"."` -/
def dot : CString := [46]

/-- `":"` -/
def colon : CString := [58]

/-- `inet_ntoa` of the address, and the port. -/
def Sender.text (sender : Sender) : CString :=
  dot.intercalate (sender.address.toList.map fun octet => Decimal.text octet.toNat) ++ colon ++
    Decimal.text sender.port.toNat

/-- `"\n"` -/
def newline : CString := [10]

/-- `" - "` -/
def separator : CString := [32, 45, 32]

/-- The line that is sent to subscribers. -/
def messageLine (sender : Sender) (message : UdpMessage) : CString :=
  sender.text ++ separator ++ message.topic ++ separator ++ message.type ++ separator ++
    message.payload ++ newline

/-- What the server makes of the datagram in the buffer: nothing if it is invalid,
else the message and the line for its subscribers. -/
def interpretDatagram (floatText : FloatText) (buffer : ByteBuffer) (sender : Sender)
    (lastByte : UInt8) : Option (UdpMessage × CString) :=
  if isValidUdpMessage buffer then
    let message := decodeUdpMessage floatText buffer lastByte
    some (message, messageLine sender message)
  else
    none

end CommunicationProtocols.Server
