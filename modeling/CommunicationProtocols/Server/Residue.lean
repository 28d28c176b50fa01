import CommunicationProtocols.Server.SessionSafety
import Mathlib.Data.List.TakeWhile

/-!
# Residual bytes of the buffer

The buffer is not cleared before a datagram or an id is read into it, and
`decode_udp_message` does not look at the length of the datagram. What a datagram
means is independent of earlier traffic exactly when every byte its type needs is
its own. An id brings its terminator with it, so earlier traffic never matters to
it.
-/

namespace CommunicationProtocols.Server

open Library

variable {floatText : FloatText}

/-! ## Two servers -/

/-- Two servers agree on everything but their buffers. -/
structure SameButBuffer (server server' : ServerState) : Prop where
  session : server'.session = server.session
  sMessage : server'.sMessage = server.sMessage

/-- A datagram is the same message, line, deliveries and stored texts whatever the buffer held. -/
def ReadAlike (floatText : FloatText) (bytes : List UInt8) : Prop :=
  ∀ server server' : ServerState, SameButBuffer server server' → ∀ sender lastByte,
    interpretDatagram floatText (server'.buffer.receive bytes) sender lastByte =
        interpretDatagram floatText (server.buffer.receive bytes) sender lastByte ∧
      (server'.datagram floatText sender bytes lastByte).1.session =
        (server.datagram floatText sender bytes lastByte).1.session ∧
      (server'.datagram floatText sender bytes lastByte).2 =
        (server.datagram floatText sender bytes lastByte).2

/-- An id is registered alike whatever the buffer held. -/
def RegisteredAlike (id : CString) : Prop :=
  ∀ server server' : ServerState, SameButBuffer server server' → ∀ newsockfd,
    (server'.buffer.receive (id ++ [0])).string 0 bufLen =
        (server.buffer.receive (id ++ [0])).string 0 bufLen ∧
      (server'.connection newsockfd (id ++ [0])).map (fun result => result.1.session) =
        (server.connection newsockfd (id ++ [0])).map fun result => result.1.session

/-- Every byte that the type of a datagram makes the decoder look at is the datagram's own. -/
structure SelfContained (bytes : List UInt8) : Prop where
  typed : 51 ≤ bytes.length
  int : bytes[50]? = some 0 → 56 ≤ bytes.length
  shortReal : bytes[50]? = some 1 → 53 ≤ bytes.length
  float : bytes[50]? = some 2 →
    57 ≤ bytes.length ∨ (bytes.length = 56 ∧ ∀ byte ∈ bytes.drop 52, byte = 0)
  string : bytes[50]? = some 3 → 0 ∈ bytes.drop 51 ∨ bytes.length = bufLen

/-- What is sent and stored for a datagram depends on its interpretation alone. -/
theorem datagram_congr {server server' : ServerState} (same : SameButBuffer server server')
    {bytes : List UInt8} {sender : Sender} {lastByte : UInt8}
    (alike : interpretDatagram floatText (server'.buffer.receive bytes) sender lastByte =
      interpretDatagram floatText (server.buffer.receive bytes) sender lastByte) :
    (server'.datagram floatText sender bytes lastByte).1.session =
        (server.datagram floatText sender bytes lastByte).1.session ∧
      (server'.datagram floatText sender bytes lastByte).2 =
        (server.datagram floatText sender bytes lastByte).2 := by
  simp only [ServerState.datagram, alike]
  cases interpretDatagram floatText (server.buffer.receive bytes) sender lastByte with
  | none => exact ⟨same.session, rfl⟩
  | some interpreted =>
      refine ⟨by rw [same.session], ?_⟩
      dsimp only
      rw [same.session]
      simp [Session.publish, Session.sendToOnline, ServerState.transmission]

/-- The reading of a datagram alone decides. -/
theorem readAlike_iff {bytes : List UInt8} :
    ReadAlike floatText bytes ↔ ∀ (residue residue' : ByteBuffer) sender lastByte,
      interpretDatagram floatText (residue'.receive bytes) sender lastByte =
        interpretDatagram floatText (residue.receive bytes) sender lastByte := by
  constructor
  · intro alike residue residue' sender lastByte
    exact (alike { sampleServer with buffer := residue } { sampleServer with buffer := residue' }
      ⟨rfl, rfl⟩ sender lastByte).1
  · intro alike server server' same sender lastByte
    have interpreted := alike server.buffer server'.buffer sender lastByte
    exact ⟨interpreted, datagram_congr same interpreted⟩

/-- An id brings its terminator. -/
theorem registeredAlike {id : CString} (valid : ValidId id) : RegisteredAlike id := by
  intro server server' same newsockfd
  have short : id.length < bufLen := valid.1.trans_lt (by decide)
  have read (buffer : ByteBuffer) : (buffer.receive (id ++ [0])).string 0 bufLen = id :=
    ByteBuffer.string_receive_terminated buffer short valid.2
  refine ⟨by rw [read, read], ?_⟩
  simp only [ServerState.connection, read, same.session, Option.map_map, Function.comp_def]

/-! ## Own bytes are enough -/

/-- A datagram is interpreted alike where its head and its payload are. -/
theorem interpretDatagram_congr {buffer buffer' : ByteBuffer}
    (head : ∀ i, i < 51 → buffer' i = buffer i)
    (payload : isValidUdpMessage buffer = true →
      decodePayload floatText buffer' = decodePayload floatText buffer)
    (sender : Sender) (lastByte : UInt8) :
    interpretDatagram floatText buffer' sender lastByte =
      interpretDatagram floatText buffer sender lastByte := by
  have valid : isValidUdpMessage buffer' = isValidUdpMessage buffer := by
    simp only [isValidUdpMessage, head 50 (by decide)]
  have topic : buffer'.contents 50 = buffer.contents 50 :=
    ByteBuffer.contents_eq_iff.mpr fun i bound => head i (by omega)
  unfold interpretDatagram
  rw [valid]
  split
  case isTrue accepted =>
    simp only [decodeUdpMessage, copiedTopic, payload accepted, topic]
  case isFalse => rfl

/-- Received bytes are the same over any residue. -/
theorem receive_agree (residue residue' : ByteBuffer) {bytes : List UInt8} {i : Nat}
    (bound : i < bytes.length) : residue'.receive bytes i = residue.receive bytes i := by
  rw [ByteBuffer.receive_apply_inside _ _ bound, ByteBuffer.receive_apply_inside _ _ bound]

/-- A string behind received bytes. -/
theorem string_receive (residue : ByteBuffer) {bytes : List UInt8} (fits : bytes.length ≤ bufLen)
    (reaches : 51 ≤ bytes.length) :
    (residue.receive bytes).string 51 bufLen =
      (bytes.drop 51 ++ (residue.contents bufLen).drop bytes.length).takeWhile
        fun byte => byte ≠ 0 := by
  rw [ByteBuffer.string, ByteBuffer.contents_receive _ fits, List.drop_append_of_le_length reaches]

/-- A string that ends in the datagram, or at the end of the buffer, does not depend on the
residue. -/
theorem string_agree (residue residue' : ByteBuffer) {bytes : List UInt8}
    (fits : bytes.length ≤ bufLen) (reaches : 51 ≤ bytes.length)
    (ends : 0 ∈ bytes.drop 51 ∨ bytes.length = bufLen) :
    (residue'.receive bytes).string 51 bufLen = (residue.receive bytes).string 51 bufLen := by
  rw [string_receive _ fits reaches, string_receive _ fits reaches]
  obtain terminated | full := ends
  · have stops : ((bytes.drop 51).takeWhile fun byte => byte ≠ 0).length ≠
        (bytes.drop 51).length := by
      intro same
      have all := List.takeWhile_eq_self_iff.mp
        ((List.takeWhile_prefix fun byte : UInt8 => byte ≠ 0).eq_of_length same)
      simpa using all 0 terminated
    rw [List.takeWhile_append, List.takeWhile_append, if_neg stops, if_neg stops]
  · have nothing (buffer : ByteBuffer) : (buffer.contents bufLen).drop bytes.length = [] := by
      rw [full]
      exact List.drop_eq_nil_of_le (ByteBuffer.length_contents _ _).le
    rw [nothing, nothing]

/-- The number at the end of a datagram is zero when its bytes are. -/
theorem networkWord_eq_zero_iff (residue : ByteBuffer) {bytes : List UInt8}
    (long : bytes.length = 56) :
    networkWord (residue.receive bytes) 52 = 0 ↔ ∀ byte ∈ bytes.drop 52, byte = 0 := by
  have own (i : Nat) (bound : i < (bytes.drop 52).length) :
      (bytes.drop 52)[i] = residue.receive bytes (52 + i) := by
    rw [List.getElem_drop, ByteBuffer.receive_apply_inside]
  have size : (bytes.drop 52).length = 4 := by rw [List.length_drop, long]
  rw [List.forall_mem_iff_forall_getElem]
  constructor
  · intro zero i bound
    have zeros : (residue.receive bytes (52 + i)).toNat = 0 := by
      unfold networkWord at zero
      obtain rfl | rfl | rfl | rfl : i = 0 ∨ i = 1 ∨ i = 2 ∨ i = 3 := by omega
      · rw [Nat.add_zero]
        omega
      all_goals omega
    rw [own i bound]
    exact UInt8.toNat_inj.mp zeros
  · intro zeros
    have zeroAt (i : Nat) (bound : i < 4) : residue.receive bytes (52 + i) = 0 :=
      (own i (by omega)).symm.trans (zeros i (by omega))
    simp only [networkWord, zeroAt 1 (by decide), zeroAt 2 (by decide), zeroAt 3 (by decide)]
    rw [zeroAt 0 (by decide)]
    rfl

/-- A datagram that brings what its type needs is interpreted from its own bytes. -/
theorem SelfContained.readAlike {bytes : List UInt8} (own : SelfContained bytes)
    (zero : ∀ negative exponent, floatText negative 0 exponent = floatText negative 0 0)
    (fits : bytes.length ≤ bufLen) : ReadAlike floatText bytes := by
  rw [readAlike_iff]
  intro residue residue' sender lastByte
  have agree {i : Nat} (bound : i < bytes.length) :
      residue'.receive bytes i = residue.receive bytes i := receive_agree residue residue' bound
  have type : bytes[50]? = some (residue.receive bytes 50) := by
    rw [ByteBuffer.receive_apply_inside _ _ own.typed, List.getElem?_eq_getElem]
  have word (long : 56 ≤ bytes.length) :
      networkWord (residue'.receive bytes) 52 = networkWord (residue.receive bytes) 52 :=
    networkWord_congr fun i _ bound => agree (by omega)
  apply interpretDatagram_congr
  · intro i bound
    exact agree (by have := own.typed; omega)
  intro accepted
  obtain isInt | isShortReal | isFloat | isString := of_decide_eq_true accepted
  · have long := own.int (by rw [type, isInt])
    rw [decodePayload_int isInt, decodePayload_int ((agree own.typed).trans isInt)]
    simp only [intPayload, word long, agree (show 51 < bytes.length by omega)]
  · have long := own.shortReal (by rw [type, isShortReal])
    rw [decodePayload_shortReal isShortReal,
      decodePayload_shortReal ((agree own.typed).trans isShortReal)]
    simp only [shortRealPayload, agree (show 51 < bytes.length by omega),
      agree (show 52 < bytes.length by omega)]
  · have enough : 56 ≤ bytes.length := by
      have long := own.float (by rw [type, isFloat])
      omega
    rw [decodePayload_float isFloat, decodePayload_float ((agree own.typed).trans isFloat)]
    simp only [floatPayload, word enough, agree (show 51 < bytes.length by omega)]
    obtain long | ⟨exact, zeros⟩ := own.float (by rw [type, isFloat])
    · rw [agree (show 56 < bytes.length by omega)]
    · rw [(networkWord_eq_zero_iff residue exact).mpr zeros, zero]
      exact congrArg (Prod.mk floatType) (zero _ _).symm
  · have ends := own.string (by rw [type, isString])
    rw [decodePayload_string isString, decodePayload_string ((agree own.typed).trans isString),
      string_agree residue residue' fits own.typed ends]

/-! ## Foreign bytes are noticed -/

/-- A residue of zeros but for one byte. -/
def residueWith (k : Nat) (byte : UInt8) : ByteBuffer := fun i => if i = k then byte else 0

/-- Behind a datagram the residue shows. -/
theorem residueWith_same {bytes : List UInt8} {k : Nat} (byte : UInt8) (behind : bytes.length ≤ k) :
    (residueWith k byte).receive bytes k = byte := by
  rw [ByteBuffer.receive_apply_outside _ _ behind, residueWith, if_pos rfl]

/-- Two such residues differ in one byte only. -/
theorem residueWith_of_ne (bytes : List UInt8) {k i : Nat} (byte byte' : UInt8) (differs : i ≠ k) :
    (residueWith k byte).receive bytes i = (residueWith k byte').receive bytes i := by
  simp [ByteBuffer.receive, residueWith, differs]

/-- All other bytes behind a datagram are zero. -/
theorem residueWith_behind {bytes : List UInt8} {k i : Nat} (byte : UInt8)
    (behind : bytes.length ≤ i) (differs : i ≠ k) :
    (residueWith k byte).receive bytes i = 0 := by
  rw [ByteBuffer.receive_apply_outside _ _ behind, residueWith, if_neg differs]

/-- A sender for comparisons. -/
def sampleSender : Sender := ⟨#v[1, 2, 3, 4], 5⟩

/-- A datagram that is read alike has its type byte. -/
theorem ReadAlike.typed {bytes : List UInt8} (alike : ReadAlike floatText bytes) :
    51 ≤ bytes.length := by
  by_contra short
  have behind : bytes.length ≤ 50 := by omega
  have read := readAlike_iff.mp alike (residueWith 50 0) (residueWith 50 4) sampleSender 0
  simp [interpretDatagram, isValidUdpMessage, residueWith_same _ behind] at read

/-- A datagram of a known type that is read alike has the same payload over any residue. -/
theorem ReadAlike.payload {bytes : List UInt8} (alike : ReadAlike floatText bytes) {type : UInt8}
    (typed : bytes[50]? = some type) (known : type = 0 ∨ type = 1 ∨ type = 2 ∨ type = 3)
    (residue residue' : ByteBuffer) :
    (decodePayload floatText (residue'.receive bytes)).2 =
      (decodePayload floatText (residue.receive bytes)).2 := by
  have valid (buffer : ByteBuffer) : isValidUdpMessage (buffer.receive bytes) = true := by
    obtain ⟨bound, found⟩ := List.getElem?_eq_some_iff.mp typed
    apply decide_eq_true
    rwa [ByteBuffer.receive_apply_inside _ _ bound, found]
  have read := readAlike_iff.mp alike residue residue' sampleSender 0
  simp only [interpretDatagram, valid, if_true, Option.some.injEq, Prod.mk.injEq,
    decodeUdpMessage, UdpMessage.mk.injEq] at read
  exact read.1.2.2

/-- A word of a datagram has 32 bits. -/
theorem networkWord_lt (buffer : ByteBuffer) (offset : Nat) : networkWord buffer offset < 2 ^ 32 := by
  have b0 := (buffer offset).toNat_lt
  have b1 := (buffer (offset + 1)).toNat_lt
  have b2 := (buffer (offset + 2)).toNat_lt
  have b3 := (buffer (offset + 3)).toNat_lt
  unfold networkWord
  omega

/-- The last byte of a number can be somebody else's. -/
theorem networkWord_residueWith {bytes : List UInt8} (behind : bytes.length ≤ 55) :
    networkWord ((residueWith 55 1).receive bytes) 52 =
      networkWord ((residueWith 55 0).receive bytes) 52 + 1 := by
  simp only [networkWord, residueWith_of_ne bytes 1 0 (show 52 ≠ 55 by decide),
    residueWith_of_ne bytes 1 0 (show 52 + 1 ≠ 55 by decide),
    residueWith_of_ne bytes 1 0 (show 52 + 2 ≠ 55 by decide), residueWith_same _ behind]
  rw [show (1 : UInt8).toNat = 1 by decide, show (0 : UInt8).toNat = 0 by decide, Nat.add_zero]

/-- The type of a datagram is in the buffer. -/
theorem type_of_receive {bytes : List UInt8} {type : UInt8} (typed : bytes[50]? = some type)
    (residue : ByteBuffer) : residue.receive bytes 50 = type := by
  obtain ⟨bound, found⟩ := List.getElem?_eq_some_iff.mp typed
  rw [ByteBuffer.receive_apply_inside _ _ bound, found]

/-- An INT that is read alike has all of its bytes. -/
theorem ReadAlike.int {bytes : List UInt8} (alike : ReadAlike floatText bytes)
    (typed : bytes[50]? = some 0) : 56 ≤ bytes.length := by
  by_contra short
  have behind : bytes.length ≤ 55 := by omega
  have same := alike.payload typed (.inl rfl) (residueWith 55 0) (residueWith 55 1)
  rw [decodePayload_int (type_of_receive typed _), decodePayload_int (type_of_receive typed _)]
    at same
  simp only [intPayload, networkWord_residueWith behind,
    residueWith_of_ne bytes 1 0 (show 51 ≠ 55 by decide)] at same
  have numbers := Decimal.intText_injective same
  split at numbers <;> omega

/-- A SHORT_REAL that is read alike has all of its bytes. -/
theorem ReadAlike.shortReal {bytes : List UInt8} (alike : ReadAlike floatText bytes)
    (typed : bytes[50]? = some 1) : 53 ≤ bytes.length := by
  by_contra short
  have behind : bytes.length ≤ 52 := by omega
  have same := alike.payload typed (.inr (.inl rfl)) (residueWith 52 0) (residueWith 52 1)
  rw [decodePayload_shortReal (type_of_receive typed _),
    decodePayload_shortReal (type_of_receive typed _)] at same
  simp only [shortRealPayload, residueWith_same _ behind,
    residueWith_of_ne bytes 1 0 (show 51 ≠ 52 by decide)] at same
  generalize (ByteBuffer.receive (residueWith 52 0) bytes 51).toNat * 2 ^ 8 = hundredths at same
  have digits := (List.append_inj' same rfl).2
  simp only [List.cons.injEq, and_true, true_and] at digits
  have last := Decimal.digit_injective (Nat.mod_lt _ (by decide)) (Nat.mod_lt _ (by decide)) digits.2
  have one : (1 : UInt8).toNat = 1 := by decide
  have zero : (0 : UInt8).toNat = 0 := by decide
  omega

/-- Different texts stay different behind the same sign. -/
theorem signed_injective (negative : Bool) : Function.Injective (signed negative) := by
  cases negative with
  | false => exact fun _ _ same => same
  | true => exact fun _ _ same => (List.cons.inj same).2

/-- Whole numbers have texts of their own. -/
theorem FloatText.Faithful.whole_injective (faithful : floatText.Faithful) {negative : Bool}
    {num num' : Nat} (small : num < 2 ^ 32) (small' : num' < 2 ^ 32)
    (same : floatText negative num 0 = floatText negative num' 0) : num = num' := by
  rw [faithful.whole _ _ small, faithful.whole _ _ small'] at same
  exact Decimal.text_injective (List.append_cancel_right (signed_injective negative same))

/-- Only zero has the text of its tenth. -/
theorem FloatText.Faithful.eq_zero_of_tenth (faithful : floatText.Faithful) {negative : Bool}
    {num : Nat} (small : num < 2 ^ 32)
    (same : floatText negative num 1 = floatText negative num 0) : num = 0 := by
  rw [faithful.tenths _ _ small, faithful.whole _ _ small] at same
  have tenth := Decimal.text_injective (List.append_inj' (signed_injective negative same) rfl).1
  omega

/-- A FLOAT that is read alike has all of its bytes, or is zero and lacks the exponent. -/
theorem ReadAlike.float (faithful : floatText.Faithful) {bytes : List UInt8}
    (alike : ReadAlike floatText bytes) (typed : bytes[50]? = some 2) :
    57 ≤ bytes.length ∨ (bytes.length = 56 ∧ ∀ byte ∈ bytes.drop 52, byte = 0) := by
  have known : (2 : UInt8) = 0 ∨ (2 : UInt8) = 1 ∨ (2 : UInt8) = 2 ∨ (2 : UInt8) = 3 := by decide
  obtain short | exact | long : bytes.length ≤ 55 ∨ bytes.length = 56 ∨ 57 ≤ bytes.length := by
    omega
  · -- Without its last byte the number can be one more or less.
    have same := alike.payload typed known (residueWith 55 0) (residueWith 55 1)
    rw [decodePayload_float (type_of_receive typed _), decodePayload_float (type_of_receive typed _)]
      at same
    simp only [floatPayload, residueWith_of_ne bytes 1 0 (show 51 ≠ 55 by decide),
      residueWith_behind _ (show bytes.length ≤ 56 by omega) (show 56 ≠ 55 by decide)] at same
    have numbers := faithful.whole_injective (networkWord_lt _ _) (networkWord_lt _ _) same
    rw [networkWord_residueWith short] at numbers
    omega
  · -- Without its exponent the number can be itself or its tenth.
    have same := alike.payload typed known (residueWith 56 0) (residueWith 56 1)
    rw [decodePayload_float (type_of_receive typed _), decodePayload_float (type_of_receive typed _)]
      at same
    have word : networkWord ((residueWith 56 1).receive bytes) 52 =
        networkWord ((residueWith 56 0).receive bytes) 52 :=
      networkWord_congr fun i _ bound => residueWith_of_ne bytes 1 0 (by omega)
    simp only [floatPayload, word, residueWith_of_ne bytes 1 0 (show 51 ≠ 56 by decide),
      residueWith_same _ exact.le] at same
    have zero := faithful.eq_zero_of_tenth (networkWord_lt _ _) same
    exact .inr ⟨exact, (networkWord_eq_zero_iff _ exact).mp zero⟩
  · exact .inl long

/-- A STRING that is read alike ends with a NUL, or fills the buffer. -/
theorem ReadAlike.string {bytes : List UInt8} (alike : ReadAlike floatText bytes)
    (fits : bytes.length ≤ bufLen) (typed : bytes[50]? = some 3) :
    0 ∈ bytes.drop 51 ∨ bytes.length = bufLen := by
  by_contra foreign
  obtain ⟨unterminated, short⟩ := not_or.mp foreign
  have same := alike.payload typed (.inr (.inr (.inr rfl))) (residueWith bytes.length 0)
    (residueWith bytes.length 1)
  rw [decodePayload_string (type_of_receive typed _),
    decodePayload_string (type_of_receive typed _)] at same
  have reads (byte : UInt8) :
      ((residueWith bytes.length byte).receive bytes).string 51 bufLen =
        bytes.drop 51 ++ (byte :: ((residueWith bytes.length byte).contents bufLen).drop
          (bytes.length + 1)).takeWhile fun byte => byte ≠ 0 := by
    have bound : bytes.length < ((residueWith bytes.length byte).contents bufLen).length := by
      rw [ByteBuffer.length_contents]
      omega
    rw [string_receive _ fits alike.typed, List.takeWhile_append_of_pos,
      List.drop_eq_getElem_cons bound,
      ByteBuffer.getElem_contents, residueWith, if_pos rfl]
    intro other member
    simpa using fun zero : other = 0 => unterminated (zero ▸ member)
  dsimp only at same
  rw [reads, reads] at same
  have tails := List.append_cancel_left same
  simp at tails

/-- `num / pow(10, exponent)` in millionths, rounded half up. -/
def millionths (num : Nat) (exponent : UInt8) : Nat :=
  if exponent < 128 then (2 * (num * 10 ^ 6) + 10 ^ exponent.toNat) / (2 * 10 ^ exponent.toNat)
  else num * 10 ^ 6 * 10 ^ (256 - exponent.toNat)

/-- Texts of numbers that are exact to six decimals. -/
def exactFloatText : FloatText := fun negative num exponent =>
  let value := millionths num exponent
  signed negative (Decimal.text (value / 10 ^ 6) ++
    [46, Decimal.digit (value / 10 ^ 5 % 10), Decimal.digit (value / 10 ^ 4 % 10),
      Decimal.digit (value / 10 ^ 3 % 10), Decimal.digit (value / 10 ^ 2 % 10),
      Decimal.digit (value / 10 % 10), Decimal.digit (value % 10)])

/-- Zero has no millionths. -/
theorem millionths_zero (exponent : UInt8) : millionths 0 exponent = 0 := by
  have positive : 0 < 10 ^ exponent.toNat := Nat.pow_pos (by decide)
  unfold millionths
  split
  · apply Nat.div_eq_of_lt
    omega
  · rw [Nat.zero_mul, Nat.zero_mul]

/-- Whole numbers in millionths. -/
theorem millionths_whole (num : Nat) : millionths num 0 = num * 10 ^ 6 := by
  rw [millionths, if_pos (by decide), show (0 : UInt8).toNat = 0 by decide]
  omega

/-- Tenths in millionths. -/
theorem millionths_tenth (num : Nat) : millionths num 1 = num * 10 ^ 5 := by
  rw [millionths, if_pos (by decide), show (1 : UInt8).toNat = 1 by decide]
  omega

/-- Exact texts tell numbers apart. -/
theorem exactFloatText_faithful : exactFloatText.Faithful where
  zero negative exponent := by simp only [exactFloatText, millionths_zero]
  whole negative num _ := by
    have digits (k : Nat) (low : k ∈ [1, 10, 10 ^ 2, 10 ^ 3, 10 ^ 4, 10 ^ 5]) :
        num * 10 ^ 6 / k % 10 = 0 := by
      simp only [List.mem_cons, List.not_mem_nil, or_false] at low
      obtain rfl | rfl | rfl | rfl | rfl | rfl := low <;> omega
    have last : num * 10 ^ 6 % 10 = 0 := by omega
    simp only [exactFloatText, millionths_whole, last, digits 10 (by decide),
      digits (10 ^ 2) (by decide), digits (10 ^ 3) (by decide), digits (10 ^ 4) (by decide),
      digits (10 ^ 5) (by decide), Nat.mul_div_cancel num (show 0 < 10 ^ 6 by decide)]
    rfl
  tenths negative num _ := by
    have digits (k : Nat) (low : k ∈ [10, 10 ^ 2, 10 ^ 3, 10 ^ 4]) : num * 10 ^ 5 / k % 10 = 0 := by
      simp only [List.mem_cons, List.not_mem_nil, or_false] at low
      obtain rfl | rfl | rfl | rfl := low <;> omega
    have whole : num * 10 ^ 5 / 10 ^ 6 = num / 10 := by omega
    have tenth : num * 10 ^ 5 / 10 ^ 5 % 10 = num % 10 := by omega
    have last : num * 10 ^ 5 % 10 = 0 := by omega
    simp only [exactFloatText, millionths_tenth, whole, tenth, last, digits 10 (by decide),
      digits (10 ^ 2) (by decide), digits (10 ^ 3) (by decide), digits (10 ^ 4) (by decide)]
    rfl

/-- A STRING datagram for the topic `t`, without a terminator. -/
def stringDatagram (content : List UInt8) : List UInt8 :=
  [116] ++ List.replicate 49 0 ++ [3] ++ content

end CommunicationProtocols.Server
