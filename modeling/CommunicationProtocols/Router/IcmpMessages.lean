import CommunicationProtocols.Router.HeaderChecksum

/-!
# The ICMP messages the router builds

All three messages are written over the packet they answer. The echo reply keeps
the request's data, but its checksum covers the ICMP header only. The time
exceeded error does not write the code, so whatever the packet had in its place
is sent.
-/

namespace CommunicationProtocols.Router

open Library Library.ByteBuffer

variable {payload : ByteBuffer} {i : Nat}

/-- `ntohs` of the total length. -/
def totLen (payload : ByteBuffer) : Nat := (htons (get16 payload ipTotLen)).toNat

/-- The total length an emitted header states. -/
def Emission.totLen (emission : Emission) : Nat :=
  wordSum ((emission.bytes.drop ipTotLen.offset).take 2)

/-- An IPv4 packet without header options that has an ICMP header's worth of
payload, all of it received. -/
structure IcmpSized (packet : Packet) : Prop where
  ipv4 : get16 packet.payload etherType = htons 0x0800
  noOptions : packet.payload sizeofEtherHeader % 16 = 5
  lower : sizeofIphdr + sizeofIcmphdr ≤ totLen packet.payload
  upper : sizeofEtherHeader + totLen packet.payload ≤ packet.len

/-- A reply to an echo request: the code, the identifier, the sequence number
and the data are the request's. -/
structure EchoReplyWellFormed (request : ByteBuffer) (emission : Emission) : Prop where
  type : emission.bytes[34]? = some 0
  code : emission.bytes[35]? = some (request 35)
  kept : (emission.bytes.drop 38).take (totLen request - 24) =
    request.slice 38 (totLen request - 24)
  sum : onesSum ((emission.bytes.drop 34).take (emission.totLen - sizeofIphdr)) = 0xFFFF

/-- An ICMP error of a type, sent back to where the packet came from. -/
structure IcmpErrorWellFormed (packet : ByteBuffer) (type : UInt8) (emission : Emission) :
    Prop where
  type : emission.bytes[34]? = some type
  code : emission.bytes[35]? = some 0
  sum : onesSum ((emission.bytes.drop 34).take (emission.totLen - sizeofIphdr)) = 0xFFFF
  destination : (emission.bytes.drop ipDaddr.offset).take 4 = packet.slice ipSaddr.offset 4

/-- The ICMP messages the router sends for the packet in the receive buffer. -/
structure IcmpWellFormed (host : Host) (received : RouterState) : Prop where
  echo : IsEchoRequest host received → ∀ emission ∈ (handle host received).2,
    EchoReplyWellFormed received.m.payload emission
  unreachable : ¬ IsEchoRequest host received → Unroutable received →
    ∀ emission ∈ (handle host received).2, IcmpErrorWellFormed received.m.payload 3 emission
  expired : ¬ IsEchoRequest host received → ¬ Unroutable received → Expired received →
    ∀ emission ∈ (handle host received).2, IcmpErrorWellFormed received.m.payload 11 emission

/-! ## The bytes of an emission -/

/-- The contents of a buffer are its bytes. -/
theorem getElem?_contents (buffer : ByteBuffer) {len : Nat} (bound : i < len) :
    (buffer.contents len)[i]? = some (buffer i) := by
  simp [contents, bound]

/-- The ICMP checksum covers the ICMP header it lies in. -/
theorem icmpChecksum_checks :
    icmpChecksum.Checks (sizeofEtherHeader + sizeofIphdr) sizeofIcmphdr where
  lower := by decide
  upper := by decide
  even := by decide
  bounded := by decide

/-! ## Errors -/

/-- An ICMP error is well formed if its type and its code are. -/
theorem icmpError_iff {request : ByteBuffer} {type : UInt8} {interface interface' : Int}
    (payload : ByteBuffer) (stated : get16 payload ipTotLen = icmpErrorTotLen)
    (sum : onesSum (payload.slice 34 8) = 0xFFFF)
    (destination : payload.slice 30 4 = request.slice 26 4) :
    IcmpErrorWellFormed request type (sendPacket interface ⟨icmpErrorLen, payload, interface'⟩) ↔
      payload 34 = type ∧ payload 35 = 0 := by
  have bytes : (sendPacket interface ⟨icmpErrorLen, payload, interface'⟩).bytes =
      payload.contents icmpErrorLen := rfl
  have length : (sendPacket interface ⟨icmpErrorLen, payload, interface'⟩).totLen -
      sizeofIphdr = 8 := by
    rw [Emission.totLen, bytes,
      take_drop_contents _ (by decide : ipTotLen.offset + 2 ≤ icmpErrorLen), wordSum_field, stated]
    decide
  have typeByte : (payload.contents icmpErrorLen)[34]? = some (payload 34) :=
    getElem?_contents _ (by decide)
  have codeByte : (payload.contents icmpErrorLen)[35]? = some (payload 35) :=
    getElem?_contents _ (by decide)
  constructor
  · intro wellFormed
    exact ⟨Option.some.inj (typeByte.symm.trans wellFormed.type),
      Option.some.inj (codeByte.symm.trans wellFormed.code)⟩
  · rintro ⟨isType, isCode⟩
    refine ⟨typeByte.trans (congrArg some isType), codeByte.trans (congrArg some isCode), ?_, ?_⟩
    · rw [length, bytes, take_drop_contents _ (by decide : 34 + 8 ≤ icmpErrorLen)]
      exact sum
    · rw [bytes, take_drop_contents _ (by decide : ipDaddr.offset + 4 ≤ icmpErrorLen)]
      exact destination

/-- A recomputed ICMP checksum over a header whose type is not zero. -/
theorem onesSum_setIcmpChecksum (typed : payload 34 ≠ 0) :
    onesSum ((setIcmpChecksum payload).slice 34 8) = 0xFFFF := by
  refine (onesSum_setChecksum_iff icmpChecksum_checks (by decide) payload).mpr fun zero => ?_
  exact typed ((restSum_eq_zero_iff payload).mp zero 34 (by decide) (by decide) (by decide))

/-- The ICMP header of a destination unreachable sums up to all ones. -/
theorem sum_destinationUnreachable (payload : ByteBuffer) :
    onesSum ((destinationUnreachable payload).slice 34 8) = 0xFFFF := by
  refine onesSum_setIcmpChecksum ?_
  rw [set8_apply_other (by decide)]
  exact (set8_apply_same _ icmpType 3).trans_ne (by decide)

/-- The ICMP header of a time exceeded sums up to all ones. -/
theorem sum_timeExceeded (payload : ByteBuffer) :
    onesSum ((timeExceeded payload).slice 34 8) = 0xFFFF :=
  onesSum_setIcmpChecksum ((set8_apply_same _ icmpType 11).trans_ne (by decide))

/-- A message written around an exchange of the addresses goes to the old source. -/
theorem destination_of_swapAddrs {message : ByteBuffer} (swapped : ByteBuffer)
    (outer : ∀ i, 30 ≤ i → i < 34 → message i = swapAddrs swapped i)
    (inner : ∀ i, 26 ≤ i → i < 30 → swapped i = payload i) :
    message.slice 30 4 = payload.slice 26 4 :=
  (slice_congr outer).trans ((slice_swapAddrs swapped).2.trans (slice_congr inner))

/-- A destination unreachable goes to the sender. -/
theorem destination_destinationUnreachable (payload : ByteBuffer) :
    (destinationUnreachable payload).slice 30 4 = payload.slice 26 4 := by
  refine destination_of_swapAddrs (setIpCheck (set8 (set8
    (set16 (swapMacs payload) ipTotLen icmpErrorTotLen) ipTtl 64) ipProtocol 1))
    (fun i _ high => ?_) fun i low _ => ?_
  · simp only [destinationUnreachable]
    rw [setIcmpChecksum_apply_outside (.inl (by omega)),
      set8_apply_other (by simp only [icmpCode]; omega),
      set8_apply_other (by simp only [icmpType]; omega)]
  · rw [setIpCheck_apply_outside (.inr low), set8_apply_other (by simp only [ipProtocol]; omega),
      set8_apply_other (by simp only [ipTtl]; omega),
      set16_apply_outside (.inr (by simp only [ipTotLen]; omega)),
      swapMacs_apply_outside (by omega)]

/-- A time exceeded goes to the sender. -/
theorem destination_timeExceeded (payload : ByteBuffer) :
    (timeExceeded payload).slice 30 4 = payload.slice 26 4 := by
  refine destination_of_swapAddrs (swapMacs (set16
    (set8 (set8 payload ipTtl 64) ipProtocol 1) ipTotLen icmpErrorTotLen))
    (fun i low high => ?_) fun i low _ => ?_
  · simp only [timeExceeded]
    rw [setIcmpChecksum_apply_outside (.inl (by omega)),
      set8_apply_other (by simp only [icmpType]; omega),
      setIpCheck_apply_outside (.inr (by omega))]
  · rw [swapMacs_apply_outside (by omega),
      set16_apply_outside (.inr (by simp only [ipTotLen]; omega)),
      set8_apply_other (by simp only [ipProtocol]; omega),
      set8_apply_other (by simp only [ipTtl]; omega)]

/-- The error for a packet without a route is always well formed. -/
theorem unreachable_wellFormed (router : RouterState) (interface : Int) :
    IcmpErrorWellFormed router.m.payload 3 (sendPacket interface (unreachablePacket router)) := by
  refine (icmpError_iff (destinationUnreachable router.m.payload)
    (totLen_destinationUnreachable _) (sum_destinationUnreachable _)
    (destination_destinationUnreachable _)).mpr ⟨?_, ?_⟩
  · refine (setIcmpChecksum_apply_outside (.inl (by decide))).trans ?_
    rw [set8_apply_other (by decide)]
    exact set8_apply_same _ icmpType 3
  · exact (setIcmpChecksum_apply_outside (.inl (by decide))).trans (set8_apply_same _ icmpCode 0)

/-- The error for an expired packet keeps what the packet had in place of the code. -/
theorem expired_wellFormed_iff (router : RouterState) (interface : Int) :
    IcmpErrorWellFormed router.m.payload 11 (sendPacket interface (expiredPacket router)) ↔
      router.m.payload 35 = 0 := by
  refine (icmpError_iff (timeExceeded router.m.payload) (totLen_timeExceeded _)
    (sum_timeExceeded _) (destination_timeExceeded _)).trans ?_
  have type : timeExceeded router.m.payload 34 = 11 :=
    (setIcmpChecksum_apply_outside (.inl (by decide))).trans (set8_apply_same _ icmpType 11)
  have code : timeExceeded router.m.payload 35 = router.m.payload 35 := by
    simp only [timeExceeded]
    rw [setIcmpChecksum_apply_outside (.inl (by decide)), set8_apply_other (by decide),
      setIpCheck_apply_outside (.inr (by decide)), swapAddrs_apply_outside (.inr (by decide)),
      swapMacs_apply_outside (by decide), set16_apply_outside (.inr (by decide)),
      set8_apply_other (by decide), set8_apply_other (by decide)]
  rw [type, code]
  exact and_iff_right rfl

/-! ## Echo replies -/

/-- The echo reply in front of its checksum. -/
theorem echoReply_eq (payload : ByteBuffer) :
    ∃ unsummed, echoReply payload = setIcmpChecksum unsummed ∧ unsummed 34 = 0 ∧
      (∀ i, 34 < i → unsummed i = payload i) ∧
      get16 unsummed ipTotLen = get16 payload ipTotLen := by
  refine ⟨_, rfl, ?_, fun i behind => ?_, get16_congr fun i low high => ?_⟩
  · rw [setIpCheck_apply_outside (.inr (by decide)), swapAddrs_apply_outside (.inr (by decide)),
      swapMacs_apply_outside (by decide), set8_apply_other (by decide)]
    exact set8_apply_same payload icmpType 0
  · rw [setIpCheck_apply_outside (.inr (by omega)), swapAddrs_apply_outside (.inr (by omega)),
      swapMacs_apply_outside (by omega),
      set8_apply_other (by simp only [ipTtl]; omega),
      set8_apply_other (by simp only [icmpType]; omega)]
  · have from16 : 16 ≤ i := low
    have bound : i < 18 := high
    rw [setIpCheck_apply_outside (.inl (by omega)), swapAddrs_apply_outside (.inl (by omega)),
      swapMacs_apply_outside (by omega),
      set8_apply_other (by simp only [ipTtl]; omega),
      set8_apply_other (by simp only [icmpType]; omega)]

/-- The words behind the ICMP header of an echo request. -/
def echoData (payload : ByteBuffer) : List UInt8 := payload.slice 42 (totLen payload - 28)

/-- Nothing in an ICMP message but its type and its checksum is other than zero. -/
def EchoBlank (payload : ByteBuffer) : Prop :=
  payload 35 = 0 ∧ ∀ byte ∈ payload.slice 38 (totLen payload - 24), byte = 0

/-- What the checksum of the reply and the data add up is zero only for a blank message. -/
theorem echoBlank_iff {unsummed : ByteBuffer} (zero : unsummed 34 = 0)
    (kept : ∀ i, 34 < i → unsummed i = payload i) (long : 28 ≤ totLen payload) :
    restSum unsummed icmpChecksum (sizeofEtherHeader + sizeofIphdr) sizeofIcmphdr +
      wordSum (echoData payload) = 0 ↔ EchoBlank payload := by
  have cut : payload.slice 38 (totLen payload - 24) = payload.slice 38 4 ++ echoData payload := by
    rw [echoData, ← slice_add, show 4 + (totLen payload - 28) = totLen payload - 24 by omega]
  rw [Nat.add_eq_zero_iff, wordSum_eq_zero_iff, restSum_eq_zero_iff, EchoBlank, cut]
  simp only [List.mem_append, or_imp, forall_and, ← and_assoc]
  refine and_congr_left fun _ => ?_
  constructor
  · intro header
    refine ⟨?_, fun byte member => ?_⟩
    · rw [← kept 35 (by decide)]
      exact header 35 (by decide) (by decide) (by decide)
    · obtain ⟨k, bound, rfl⟩ := List.mem_map.mp member
      have small := List.mem_range.mp bound
      rw [← kept _ (by omega)]
      exact header _ (by simp only [sizeofEtherHeader, sizeofIphdr]; omega)
        (by simp only [sizeofEtherHeader, sizeofIphdr, sizeofIcmphdr]; omega)
        (by simp only [icmpChecksum]; omega)
  · rintro ⟨code, rest⟩ i low high outside
    simp only [sizeofEtherHeader, sizeofIphdr, sizeofIcmphdr, icmpChecksum] at low high outside
    rcases (by omega : i = 34 ∨ i = 35 ∨ 38 ≤ i) with rfl | rfl | behind
    · exact zero
    · rw [kept 35 (by decide), code]
    · rw [kept i (by omega)]
      exact rest _ (List.mem_map.mpr ⟨i - 38, List.mem_range.mpr (by omega),
        by rw [Nat.add_sub_cancel' behind]⟩)

/-- An echo reply is well formed exactly when its data adds up to zero and not
every byte it sums is zero. -/
theorem echoReply_wellFormed_iff (router : RouterState) (sized : IcmpSized router.m)
    (interface : Int) :
    EchoReplyWellFormed router.m.payload (sendPacket interface (echoReplyPacket router)) ↔
      wordSum (echoData router.m.payload) ≡ 0 [MOD onesModulus] ∧ ¬ EchoBlank router.m.payload := by
  obtain ⟨_, _, lower, upper⟩ := sized
  simp only [sizeofEtherHeader, sizeofIphdr, sizeofIcmphdr] at lower upper
  obtain ⟨unsummed, reply, zero, kept, total⟩ := echoReply_eq router.m.payload
  have bytes : (sendPacket interface (echoReplyPacket router)).bytes =
      (setIcmpChecksum unsummed).contents router.m.len := by
    rw [← reply]
    rfl
  have stated : totLen (setIcmpChecksum unsummed) = totLen router.m.payload := by
    have same : get16 (setIcmpChecksum unsummed) ipTotLen = get16 unsummed ipTotLen :=
      get16_congr fun i _ high =>
        setIcmpChecksum_apply_outside (.inl (Nat.lt_of_lt_of_le high (by decide)))
    rw [totLen, same, total, totLen]
  have length : (sendPacket interface (echoReplyPacket router)).totLen = totLen router.m.payload := by
    rw [Emission.totLen, bytes, take_drop_contents _ (by simp only [ipTotLen]; omega),
      wordSum_field]
    exact stated
  have data : unsummed.slice 42 (totLen router.m.payload - 28) = echoData router.m.payload :=
    slice_congr fun i low _ => kept i (by omega)
  have summed : onesSum (((sendPacket interface (echoReplyPacket router)).bytes.drop 34).take
      ((sendPacket interface (echoReplyPacket router)).totLen - sizeofIphdr)) = 0xFFFF ↔
        wordSum (echoData router.m.payload) ≡ 0 [MOD onesModulus] ∧
          ¬ EchoBlank router.m.payload := by
    have parts : totLen router.m.payload - sizeofIphdr =
        sizeofIcmphdr + (totLen router.m.payload - 28) := by
      simp only [sizeofIphdr, sizeofIcmphdr]
      omega
    rw [length, bytes, parts, take_drop_contents _ (by simp only [sizeofIcmphdr]; omega),
      ← echoBlank_iff zero kept lower, ← data]
    exact onesSum_setChecksum_append_iff icmpChecksum_checks (by decide) unsummed _
  constructor
  · exact fun wellFormed => summed.mp wellFormed.sum
  · intro holds
    refine ⟨?_, ?_, ?_, summed.mpr holds⟩
    · rw [bytes, getElem?_contents _ (by omega), setIcmpChecksum_apply_outside (.inl (by decide)),
        zero]
    · rw [bytes, getElem?_contents _ (by omega), setIcmpChecksum_apply_outside (.inl (by decide)),
        kept 35 (by decide)]
    · rw [bytes, take_drop_contents _ (by omega)]
      exact slice_congr fun i low _ => by
        rw [setIcmpChecksum_apply_outside (.inr (by omega)), kept i (by omega)]

/-! ## The law by the way a packet takes -/

section

variable {host : Host} {received : RouterState}

/-- For an echo request the law is about its reply. -/
theorem icmpWellFormed_iff_of_echo (request : IsEchoRequest host received)
    (emitted : (handle host received).2 =
      [sendPacket received.m.interface (echoReplyPacket received)]) :
    IcmpWellFormed host received ↔ EchoReplyWellFormed received.m.payload
      (sendPacket received.m.interface (echoReplyPacket received)) := by
  rw [← List.forall_mem_singleton (p := EchoReplyWellFormed received.m.payload), ← emitted]
  exact ⟨fun wellFormed => wellFormed.echo request, fun reply => ⟨fun _ => reply,
    fun notEcho => absurd request notEcho, fun notEcho => absurd request notEcho⟩⟩

/-- For a packet without a route the law is about the error of type 3. -/
theorem icmpWellFormed_iff_of_unroutable (notEcho : ¬ IsEchoRequest host received)
    (unroutable : Unroutable received)
    (emitted : (handle host received).2 =
      [sendPacket received.m.interface (unreachablePacket received)]) :
    IcmpWellFormed host received ↔ IcmpErrorWellFormed received.m.payload 3
      (sendPacket received.m.interface (unreachablePacket received)) := by
  rw [← List.forall_mem_singleton (p := IcmpErrorWellFormed received.m.payload 3), ← emitted]
  exact ⟨fun wellFormed => wellFormed.unreachable notEcho unroutable,
    fun error => ⟨fun request => absurd request notEcho, fun _ _ => error,
      fun _ routed => absurd unroutable routed⟩⟩

/-- For a packet that has no time to live left it is about the error of type 11. -/
theorem icmpWellFormed_iff_of_expired (notEcho : ¬ IsEchoRequest host received)
    (routed : ¬ Unroutable received) (expired : Expired received)
    (emitted : (handle host received).2 =
      [sendPacket received.m.interface (expiredPacket received)]) :
    IcmpWellFormed host received ↔ IcmpErrorWellFormed received.m.payload 11
      (sendPacket received.m.interface (expiredPacket received)) := by
  rw [← List.forall_mem_singleton (p := IcmpErrorWellFormed received.m.payload 11), ← emitted]
  exact ⟨fun wellFormed => wellFormed.expired notEcho routed expired,
    fun error => ⟨fun request => absurd request notEcho,
      fun _ unroutable => absurd unroutable routed, fun _ _ _ => error⟩⟩

/-- About other packets it says nothing. -/
theorem icmpWellFormed_of_alive (notEcho : ¬ IsEchoRequest host received)
    (routed : ¬ Unroutable received) (alive : ¬ Expired received) : IcmpWellFormed host received :=
  ⟨fun request => absurd request notEcho, fun _ unroutable => absurd unroutable routed,
    fun _ _ expired => absurd expired alive⟩

end

/-- The ICMP messages for a packet are well formed exactly when an echoed
message is not blank and its data adds up to zero, and an expired packet has a
zero in the place of the code. -/
theorem icmpWellFormed_iff (host : Host) (router : RouterState) (frame : Frame)
    (sized : IcmpSized (router.receive frame).m) :
    IcmpWellFormed host (router.receive frame) ↔
      (IsEchoRequest host (router.receive frame) →
        wordSum (echoData (router.receive frame).m.payload) ≡ 0 [MOD onesModulus] ∧
          ¬ EchoBlank (router.receive frame).m.payload) ∧
      (¬ IsEchoRequest host (router.receive frame) → ¬ Unroutable (router.receive frame) →
        Expired (router.receive frame) → (router.receive frame).m.payload 35 = 0) := by
  generalize router.receive frame = received at sized ⊢
  have branch : handle host received = handleIpv4 host received := if_pos sized.ipv4
  rcases ipv4Outcome host received with ⟨request, handled⟩ | ⟨notEcho, unroutable, handled⟩ |
    ⟨notEcho, routed, expired, handled⟩ | ⟨notEcho, routed, alive, _, _⟩ |
    ⟨notEcho, routed, alive, _, _, _⟩ | ⟨notEcho, routed, alive, _, _, _, _, _, _⟩
  · have emitted := congrArg Prod.snd (branch.trans handled)
    rw [icmpWellFormed_iff_of_echo request emitted, echoReply_wellFormed_iff received sized]
    exact ⟨fun reply => ⟨fun _ => reply, fun notEcho => absurd request notEcho⟩,
      fun ⟨echo, _⟩ => echo request⟩
  · have emitted := congrArg Prod.snd (branch.trans handled)
    rw [icmpWellFormed_iff_of_unroutable notEcho unroutable emitted]
    exact iff_of_true (unreachable_wellFormed received _)
      ⟨fun request => absurd request notEcho, fun _ routed => absurd unroutable routed⟩
  · have emitted := congrArg Prod.snd (branch.trans handled)
    rw [icmpWellFormed_iff_of_expired notEcho routed expired emitted,
      expired_wellFormed_iff received]
    exact ⟨fun coded => ⟨fun request => absurd request notEcho, fun _ _ _ => coded⟩,
      fun ⟨_, coded⟩ => coded notEcho routed expired⟩
  all_goals
    exact iff_of_true (icmpWellFormed_of_alive notEcho routed alive)
      ⟨fun request => absurd request notEcho, fun _ _ expired => absurd expired alive⟩

/-! ## Two pings -/

/-- An echo request from 10.0.0.5 to the router's interface 0, with four bytes of data. -/
def pingFrame (data : List UInt8) : Frame where
  interface := 0
  bytes :=
    [0x02, 0, 0, 0, 0, 0, 0x02, 0, 0, 0, 0, 0x99, 0x08, 0x00,
      0x45, 0, 0, 0x20, 0, 0, 0, 0, 0x40, 0x01, 0xb0, 0x2f, 10, 0, 0, 5, 192, 168, 0, 1,
      8, 0, 0, 0, 0, 1, 0, 1] ++ data

/-- The reply to a ping whose data adds up to zero is well formed. -/
theorem icmpWellFormed_iff_ping :
    IcmpWellFormed sampleHost (sampleRouter.receive (pingFrame [0x12, 0x34, 0xed, 0xcb])) := by
  refine (icmpWellFormed_iff sampleHost sampleRouter (pingFrame [0x12, 0x34, 0xed, 0xcb])
    ⟨by decide +kernel, by decide +kernel, by decide +kernel, by decide +kernel⟩).mpr
    ⟨fun _ => ⟨by decide +kernel, fun blank => ?_⟩, fun notEcho => ?_⟩
  · have sequence := blank.2 1 (by decide +kernel)
    exact absurd sequence (by decide)
  · exact absurd (by decide +kernel) notEcho

/-- The checksum of the reply to an ordinary ping does not cover its data. -/
theorem ping_reply_malformed :
    Initial sampleRouter ∧ IcmpSized (sampleRouter.receive (pingFrame [1, 2, 3, 4])).m ∧
      ¬ IcmpWellFormed sampleHost (sampleRouter.receive (pingFrame [1, 2, 3, 4])) := by
  refine ⟨sampleRouter_initial,
    ⟨by decide +kernel, by decide +kernel, by decide +kernel, by decide +kernel⟩, fun wellFormed => ?_⟩
  have reply := wellFormed.echo (by decide +kernel) (sendPacket 0
    (echoReplyPacket (sampleRouter.receive (pingFrame [1, 2, 3, 4])))) (by decide +kernel)
  exact absurd reply.sum (by decide +kernel)

end CommunicationProtocols.Router
