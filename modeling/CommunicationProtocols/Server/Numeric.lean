import CommunicationProtocols.Server.Residue

/-!
# Numbers in datagrams

A publisher encodes a topic and a number; the server prints the number. What it
prints reads back as the number that was sent, over the whole range of both
numeric types and whatever the buffer held before.
-/

namespace CommunicationProtocols.Server

open Library Library.ByteBuffer

/-! ## What publishers send -/

/-- The topic field of a datagram: 50 bytes, padded with zeros. -/
def encodeTopic (topic : CString) : List UInt8 := topic ++ List.replicate (50 - topic.length) 0

/-- An INT datagram: the sign byte and a 32-bit number, most significant byte first. -/
def encodeInt (topic : CString) (negative : Bool) (n : BitVec 32) : List UInt8 :=
  encodeTopic topic ++ [0, if negative then 1 else 0, UInt8.ofNat (n.toNat / 2 ^ 24),
    UInt8.ofNat (n.toNat / 2 ^ 16), UInt8.ofNat (n.toNat / 2 ^ 8), UInt8.ofNat n.toNat]

/-- A SHORT_REAL datagram: a 16-bit number of hundredths, most significant byte first. -/
def encodeShortReal (topic : CString) (v : BitVec 16) : List UInt8 :=
  encodeTopic topic ++ [1, UInt8.ofNat (v.toNat / 2 ^ 8), UInt8.ofNat v.toNat]

/-- The number an INT datagram stands for. -/
def signedNumber (negative : Bool) (n : BitVec 32) : Int :=
  if negative then -(n.toNat : Int) else n.toNat

/-- The text is a number of hundredths as a decimal fraction with two decimals. -/
def IsHundredths (text : CString) (v : Nat) : Prop :=
  ∃ whole tenths hundredths, tenths < 10 ∧ hundredths < 10 ∧
    text = Decimal.text whole ++ [46, Decimal.digit tenths, Decimal.digit hundredths] ∧
    v = 100 * whole + 10 * tenths + hundredths

/-! ## The fields in the buffer -/

section

variable {topic : CString}

/-- The topic field has 50 bytes. -/
theorem length_encodeTopic (fits : topic.length ≤ 50) : (encodeTopic topic).length = 50 := by
  rw [encodeTopic, List.length_append, List.length_replicate]
  omega

/-- The fields behind the topic are found behind 50 bytes. -/
theorem receive_encodeTopic (fits : topic.length ≤ 50) (buffer : ByteBuffer)
    (fields : List UInt8) {k : Nat} (inside : k < fields.length) :
    buffer.receive (encodeTopic topic ++ fields) (50 + k) = fields[k] := by
  have front := length_encodeTopic fits
  rw [receive_apply_inside buffer _ (by rw [List.length_append]; omega),
    List.getElem_append_right (by omega)]
  congr 1
  omega

/-- The topic is copied up to its end: a zero byte of the field, or the byte behind it. -/
theorem copiedTopic_encodeTopic (fits : topic.length ≤ 50) (whole : 0 ∉ topic)
    (buffer : ByteBuffer) (fields : List UInt8) {lastByte : UInt8}
    (ends : topic.length < 50 ∨ lastByte = 0) (type : CString) :
    copiedTopic (buffer.receive (encodeTopic topic ++ fields)) lastByte type = topic := by
  have front := length_encodeTopic fits
  have field : (buffer.receive (encodeTopic topic ++ fields)).contents 50 = encodeTopic topic := by
    apply List.ext_getElem
    · rw [length_contents, front]
    · intro i bound bound'
      rw [getElem_contents, receive_apply_inside buffer _ (by rw [List.length_append]; omega),
        List.getElem_append_left bound']
  have padding : (List.replicate (50 - topic.length) (0 : UInt8)).takeWhile
      (fun byte => byte ≠ 0) = [] := by
    cases 50 - topic.length with
    | zero => rfl
    | succ rest => simp [List.replicate_succ]
  have copied : (encodeTopic topic).takeWhile (fun byte => byte ≠ 0) = topic := by
    rw [encodeTopic, List.takeWhile_append_of_pos, padding, List.append_nil]
    intro byte member
    simpa using fun zero : byte = 0 => whole (zero ▸ member)
  rw [copiedTopic, field, copied]
  refine if_neg ?_
  rintro ⟨full, behind⟩
  rcases ends with short | zero
  · omega
  · exact behind zero

/-- The bytes of a number in network byte order add up to the number. -/
theorem networkWord_encodeInt (fits : topic.length ≤ 50) (buffer : ByteBuffer) (negative : Bool)
    (n : BitVec 32) :
    networkWord (buffer.receive (encodeInt topic negative n)) 52 = n.toNat := by
  have bound := n.isLt
  have byte (k : Nat) (inside : k < 6) := receive_encodeTopic fits buffer [0,
    if negative then 1 else 0, UInt8.ofNat (n.toNat / 2 ^ 24), UInt8.ofNat (n.toNat / 2 ^ 16),
    UInt8.ofNat (n.toNat / 2 ^ 8), UInt8.ofNat n.toNat] inside
  have first : buffer.receive (encodeInt topic negative n) 52 = UInt8.ofNat (n.toNat / 2 ^ 24) :=
    byte 2 (by decide)
  have second : buffer.receive (encodeInt topic negative n) (52 + 1) =
      UInt8.ofNat (n.toNat / 2 ^ 16) := byte 3 (by decide)
  have third : buffer.receive (encodeInt topic negative n) (52 + 2) =
      UInt8.ofNat (n.toNat / 2 ^ 8) := byte 4 (by decide)
  have fourth : buffer.receive (encodeInt topic negative n) (52 + 3) = UInt8.ofNat n.toNat :=
    byte 5 (by decide)
  rw [networkWord, first, second, third, fourth]
  simp only [UInt8.toNat_ofNat']
  omega

/-- The text of an INT datagram is the decimal text of its number. -/
theorem intPayload_encodeInt (fits : topic.length ≤ 50) (buffer : ByteBuffer) (negative : Bool)
    (n : BitVec 32) :
    intPayload (buffer.receive (encodeInt topic negative n)) =
      Decimal.intText (signedNumber negative n) := by
  have sign : buffer.receive (encodeInt topic negative n) 51 = if negative then 1 else 0 :=
    receive_encodeTopic fits buffer _ (k := 1) (by simp)
  rw [intPayload, networkWord_encodeInt fits, sign, signedNumber]
  cases negative <;> rfl

/-- The text of a SHORT_REAL datagram is its number of hundredths. -/
theorem shortRealPayload_encodeShortReal (fits : topic.length ≤ 50) (buffer : ByteBuffer)
    (v : BitVec 16) :
    IsHundredths (shortRealPayload (buffer.receive (encodeShortReal topic v))) v.toNat := by
  have bound := v.isLt
  have high : buffer.receive (encodeShortReal topic v) 51 = UInt8.ofNat (v.toNat / 2 ^ 8) :=
    receive_encodeTopic fits buffer _ (k := 1) (by simp)
  have low : buffer.receive (encodeShortReal topic v) 52 = UInt8.ofNat v.toNat :=
    receive_encodeTopic fits buffer _ (k := 2) (by simp)
  have value : (UInt8.ofNat (v.toNat / 2 ^ 8)).toNat * 2 ^ 8 + (UInt8.ofNat v.toNat).toNat =
      v.toNat := by
    simp only [UInt8.toNat_ofNat']
    omega
  rw [shortRealPayload, high, low, value]
  exact ⟨v.toNat / 100, v.toNat / 10 % 10, v.toNat % 10, by omega, by omega, rfl, by omega⟩

end

/-- A text is a number of hundredths in one way. -/
theorem IsHundredths.unique {text : CString} {v v' : Nat} (first : IsHundredths text v)
    (second : IsHundredths text v') : v = v' := by
  obtain ⟨whole, tenths, hundredths, smallTenths, smallHundredths, rfl, rfl⟩ := first
  obtain ⟨whole', tenths', hundredths', smallTenths', smallHundredths', same, rfl⟩ := second
  obtain ⟨wholes, fractions⟩ := List.append_inj' same rfl
  injection fractions with _ decimals
  injection decimals with sameTenths last
  injection last with sameHundredths
  have whole_eq := Decimal.text_injective wholes
  have tenths_eq := Decimal.digit_injective smallTenths smallTenths' sameTenths
  have hundredths_eq := Decimal.digit_injective smallHundredths smallHundredths' sameHundredths
  rw [whole_eq, tenths_eq, hundredths_eq]

/-! ## Decoding what was encoded -/

/-- The datagram is accepted and decoded to its type, a text for its number, and
its topic. A topic of 50 bytes needs a zero in the byte of the node behind it. -/
structure DecodesTo (floatText : FloatText) (received : ByteBuffer) (topic type : CString)
    (meaning : CString → Prop) : Prop where
  accepted : isValidUdpMessage received = true
  topic : ∀ lastByte, topic.length < 50 ∨ lastByte = 0 →
    (decodeUdpMessage floatText received lastByte).topic = topic
  type : ∀ lastByte, (decodeUdpMessage floatText received lastByte).type = type
  payload : ∀ lastByte, meaning (decodeUdpMessage floatText received lastByte).payload

/-- The C library reads the text, with its terminating NUL, as the number. -/
def ReadsAs (z : Int) (text : CString) : Prop := Decimal.strtol (text ++ [0]) = some z

/-- Numeric datagrams for a topic decode to what was encoded, whatever the buffer
held before, and distinct numbers have distinct texts. -/
structure NumericDecodes (floatText : FloatText) (topic : CString) : Prop where
  int : ∀ (buffer : ByteBuffer) (negative : Bool) (n : BitVec 32),
    DecodesTo floatText (buffer.receive (encodeInt topic negative n)) topic intType
      (ReadsAs (signedNumber negative n))
  shortReal : ∀ (buffer : ByteBuffer) (v : BitVec 16),
    DecodesTo floatText (buffer.receive (encodeShortReal topic v)) topic shortRealType
      fun text => IsHundredths text v.toNat
  intDistinct : ∀ (buffer buffer' : ByteBuffer) (negative negative' : Bool) (n n' : BitVec 32)
    (lastByte lastByte' : UInt8), signedNumber negative n ≠ signedNumber negative' n' →
      (decodeUdpMessage floatText (buffer.receive (encodeInt topic negative n))
        lastByte).payload ≠
      (decodeUdpMessage floatText (buffer'.receive (encodeInt topic negative' n'))
        lastByte').payload
  shortRealDistinct : ∀ (buffer buffer' : ByteBuffer) (v v' : BitVec 16)
    (lastByte lastByte' : UInt8), v ≠ v' →
      (decodeUdpMessage floatText (buffer.receive (encodeShortReal topic v)) lastByte).payload ≠
      (decodeUdpMessage floatText (buffer'.receive (encodeShortReal topic v')) lastByte').payload

section

variable {floatText : FloatText} {topic : CString}

/-- A datagram whose payload is decoded to a text decodes to its topic, too. -/
theorem decodesTo_of_decoded (fits : topic.length ≤ 50) (whole : 0 ∉ topic) (buffer : ByteBuffer)
    {fields : List UInt8} {type payload : CString} {meaning : CString → Prop}
    (accepted : isValidUdpMessage (buffer.receive (encodeTopic topic ++ fields)) = true)
    (decoded : decodePayload floatText (buffer.receive (encodeTopic topic ++ fields)) =
      (type, payload)) (means : meaning payload) :
    DecodesTo floatText (buffer.receive (encodeTopic topic ++ fields)) topic type meaning := by
  constructor
  case accepted => exact accepted
  case topic => exact fun lastByte ends => copiedTopic_encodeTopic fits whole buffer _ ends _
  case type => exact fun lastByte => by rw [decodeUdpMessage, decoded]
  case payload => exact fun lastByte => by rwa [decodeUdpMessage, decoded]

/-- An INT datagram decodes to its number. -/
theorem decodesTo_int (fits : topic.length ≤ 50) (whole : 0 ∉ topic) (buffer : ByteBuffer)
    (negative : Bool) (n : BitVec 32) :
    DecodesTo floatText (buffer.receive (encodeInt topic negative n)) topic intType
      (ReadsAs (signedNumber negative n)) := by
  have type : buffer.receive (encodeInt topic negative n) 50 = 0 :=
    receive_encodeTopic fits buffer _ (k := 0) (by simp)
  have accepted : isValidUdpMessage (buffer.receive (encodeInt topic negative n)) = true := by
    simp [isValidUdpMessage, type]
  refine decodesTo_of_decoded fits whole buffer accepted (decodePayload_int type) ?_
  have bound := n.isLt
  have text := @intPayload_encodeInt topic fits buffer negative n
  rw [encodeInt] at text
  rw [text]
  apply Decimal.strtol_intText rfl
  rw [signedNumber]
  split <;> omega

/-- A SHORT_REAL datagram decodes to its number of hundredths. -/
theorem decodesTo_shortReal (fits : topic.length ≤ 50) (whole : 0 ∉ topic) (buffer : ByteBuffer)
    (v : BitVec 16) :
    DecodesTo floatText (buffer.receive (encodeShortReal topic v)) topic shortRealType
      fun text => IsHundredths text v.toNat := by
  have type : buffer.receive (encodeShortReal topic v) 50 = 1 :=
    receive_encodeTopic fits buffer _ (k := 0) (by simp)
  have accepted : isValidUdpMessage (buffer.receive (encodeShortReal topic v)) = true := by
    simp [isValidUdpMessage, type]
  exact decodesTo_of_decoded fits whole buffer accepted (decodePayload_shortReal type)
    (shortRealPayload_encodeShortReal fits buffer v)

end

/-- Both numeric types decode to their values, over their whole range. -/
theorem numeric_decodes (floatText : FloatText) (topic : CString) (fits : topic.length ≤ 50)
    (whole : 0 ∉ topic) : NumericDecodes floatText topic where
  int buffer negative n := decodesTo_int fits whole buffer negative n
  shortReal buffer v := decodesTo_shortReal fits whole buffer v
  intDistinct buffer buffer' negative negative' n n' lastByte lastByte' distinct same := by
    have first := (@decodesTo_int floatText _ fits whole buffer negative n).payload lastByte
    have second := (@decodesTo_int floatText _ fits whole buffer' negative' n').payload lastByte'
    rw [← same] at second
    exact distinct (Option.some.inj (first.symm.trans second))
  shortRealDistinct buffer buffer' v v' lastByte lastByte' distinct same := by
    have first := (@decodesTo_shortReal floatText _ fits whole buffer v).payload lastByte
    have second := (@decodesTo_shortReal floatText _ fits whole buffer' v').payload lastByte'
    rw [← same] at second
    exact distinct (BitVec.eq_of_toNat_eq (first.unique second))

/-- A topic that fills its field. -/
def longTopic : CString := ascii "abcdefghijklmnopqrstuvwxyzabcdefghijklmnopqrstuvwx"

theorem numeric_decodes_long : NumericDecodes exactFloatText longTopic :=
  numeric_decodes exactFloatText longTopic (by decide) (by decide)

end CommunicationProtocols.Server
