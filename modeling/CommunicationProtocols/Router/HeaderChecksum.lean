import CommunicationProtocols.Router.Checksum
import CommunicationProtocols.Router.Ipv4

/-!
# The IPv4 header checksum

Every IPv4 header the router writes is valid: whatever is edited behind the
checksum computation only exchanges words of the header, and the time to live
keeps the header from being zero altogether. Headers that arrive are checked in
the forwarding step only, and there one valid header is dropped: the one whose
checksum field is the other zero.
-/

namespace CommunicationProtocols.Router

open Library Library.ByteBuffer

variable {payload payload' : ByteBuffer}

/-- The ones'-complement sum of the IPv4 header. -/
def headerSum (payload : ByteBuffer) : Nat :=
  onesSum (payload.slice sizeofEtherHeader sizeofIphdr)

/-- The header checksum covers the header it lies in. -/
theorem ipCheck_checks : ipCheck.Checks sizeofEtherHeader sizeofIphdr where
  lower := by decide
  upper := by decide
  even := by decide
  bounded := by decide

/-! ## Headers the router writes -/

/-- The sum of a header depends on its twenty bytes. -/
theorem headerSum_congr (same : ∀ i, 14 ≤ i → i < 34 → payload i = payload' i) :
    headerSum payload = headerSum payload' :=
  congrArg onesSum (slice_congr same)

/-- A header with a time to live is not zero without its checksum. -/
theorem headerRest_ne_zero (alive : payload 22 ≠ 0) :
    restSum payload ipCheck sizeofEtherHeader sizeofIphdr ≠ 0 := by
  intro zero
  exact alive ((restSum_eq_zero_iff payload).mp zero 22 (by decide) (by decide) (by decide))

/-- A header with its own checksum sums up to all ones. -/
theorem headerSum_setIpCheck (alive : payload 22 ≠ 0) : headerSum (setIpCheck payload) = 0xFFFF :=
  (onesSum_setChecksum_iff ipCheck_checks (by decide) payload).mpr (headerRest_ne_zero alive)

/-- The slices of the addresses after the exchange. -/
theorem slice_swapAddrs (payload : ByteBuffer) :
    (swapAddrs payload).slice 26 4 = payload.slice 30 4 ∧
      (swapAddrs payload).slice 30 4 = payload.slice 26 4 := by
  constructor
  · have written : (swapAddrs payload).slice 26 4 = (bytes32 (get32 payload ipDaddr)).toList :=
      slice_write_same _ 26 _
    rw [written, get32, bytes32_word32]
    exact (slice_eq_read payload 30 4).symm
  · have kept : (swapAddrs payload).slice 30 4 =
        (set32 payload ipDaddr (get32 payload ipSaddr)).slice 30 4 :=
      slice_write_disjoint _ _ (.inr (by decide))
    have written : (set32 payload ipDaddr (get32 payload ipSaddr)).slice 30 4 =
        (bytes32 (get32 payload ipSaddr)).toList := slice_write_same _ 30 _
    rw [kept, written, get32, bytes32_word32]
    exact (slice_eq_read payload 26 4).symm

/-- Exchanging the addresses does not touch the sum. -/
theorem headerSum_swapAddrs (payload : ByteBuffer) :
    headerSum (swapAddrs payload) = 0xFFFF ↔ headerSum payload = 0xFFFF := by
  have cut (buffer : ByteBuffer) : wordSum (buffer.slice 14 20) = wordSum (buffer.slice 14 12) +
      (wordSum (buffer.slice 26 4) + wordSum (buffer.slice 30 4)) := by
    rw [show 20 = 12 + (4 + 4) by rfl, slice_add, wordSum_append (by rw [length_slice]), slice_add,
      wordSum_append (by rw [length_slice])]
  have front : (swapAddrs payload).slice 14 12 = payload.slice 14 12 :=
    slice_congr fun i _ high => swapAddrs_apply_outside (.inl (by omega))
  have same : wordSum ((swapAddrs payload).slice 14 20) = wordSum (payload.slice 14 20) := by
    rw [cut, cut, front, (slice_swapAddrs payload).1, (slice_swapAddrs payload).2]
    omega
  rw [headerSum, headerSum, onesSum_eq_iff, onesSum_eq_iff]
  simp only [sizeofEtherHeader, sizeofIphdr, same]

/-- The ICMP checksum lies behind the header. -/
theorem headerSum_setIcmpChecksum (payload : ByteBuffer) :
    headerSum (setIcmpChecksum payload) = headerSum payload :=
  headerSum_congr fun _ _ high => setIcmpChecksum_apply_outside (.inl (by omega))

/-- A byte behind the header does not change its sum. -/
theorem headerSum_set8 {field : Field 1} {value : UInt8} (behind : 34 ≤ field.offset) :
    headerSum (set8 payload field value) = headerSum payload :=
  headerSum_congr fun _ _ high => set8_apply_other (by omega)

/-- The header of an echo reply sums up to all ones. -/
theorem headerSum_echoReply (payload : ByteBuffer) : headerSum (echoReply payload) = 0xFFFF := by
  simp only [echoReply]
  rw [headerSum_setIcmpChecksum]
  refine headerSum_setIpCheck ?_
  rw [swapAddrs_apply_outside (by decide), swapMacs_apply_outside (by decide)]
  exact (set8_apply_same _ ipTtl 64).trans_ne (by decide)

/-- The header of a destination unreachable sums up to all ones. -/
theorem headerSum_destinationUnreachable (payload : ByteBuffer) :
    headerSum (destinationUnreachable payload) = 0xFFFF := by
  simp only [destinationUnreachable]
  rw [headerSum_setIcmpChecksum, headerSum_set8 (by decide), headerSum_set8 (by decide),
    headerSum_swapAddrs]
  refine headerSum_setIpCheck ?_
  rw [set8_apply_other (by decide)]
  exact (set8_apply_same _ ipTtl 64).trans_ne (by decide)

/-- The header of a time exceeded sums up to all ones. -/
theorem headerSum_timeExceeded (payload : ByteBuffer) :
    headerSum (timeExceeded payload) = 0xFFFF := by
  simp only [timeExceeded]
  rw [headerSum_setIcmpChecksum, headerSum_set8 (by decide)]
  refine headerSum_setIpCheck ?_
  rw [swapAddrs_apply_outside (by decide), swapMacs_apply_outside (by decide),
    set16_apply_outside (.inr (by decide)), set8_apply_other (by decide)]
  exact (set8_apply_same _ ipTtl 64).trans_ne (by decide)

/-- The header of a forwarded packet sums up to all ones. -/
theorem headerSum_forwardedPayload (alive : ¬ get8 payload ipTtl ≤ 1) :
    headerSum (forwardedPayload payload) = 0xFFFF := by
  simp only [forwardedPayload]
  have ttl : get8 (setIpCheck payload) ipTtl = get8 payload ipTtl := by
    rw [get8_eq, get8_eq]
    exact setIpCheck_apply_outside (.inl (by decide))
  refine headerSum_setIpCheck ((set8_apply_same _ ipTtl _).trans_ne ?_)
  rw [ttl]
  intro zero
  apply alive
  have one : get8 payload ipTtl - 1 + 1 = 0 + 1 := congrArg (· + 1) zero
  rw [UInt8.sub_add_cancel] at one
  rw [one]
  decide

/-! ## What the router emits -/

/-- An emitted frame that is no ARP packet: what is sent is the packet in the
receive buffer, and its header adds up to all ones. -/
structure HeaderValid (router : RouterState) (emission : Emission) : Prop where
  sent : emission.bytes = router.m.bytes
  buffered : headerSum router.m.payload = 0xFFFF
  emitted : sizeofEtherHeader + sizeofIphdr ≤ emission.bytes.length →
    onesSum ((emission.bytes.drop sizeofEtherHeader).take sizeofIphdr) = 0xFFFF

/-- A packet with such a header is sent with a valid one. -/
theorem headerValid_sendBuffer (router : RouterState) (interface : Int) (packet : Packet)
    (valid : headerSum packet.payload = 0xFFFF) :
    ∀ emission ∈ (sendBuffer router interface packet).2,
      HeaderValid (sendBuffer router interface packet).1 emission := by
  intro emission member
  obtain rfl := List.mem_singleton.mp member
  have buffer : (sendBuffer router interface packet).1.m = packet := RouterState.store_m _ _
  refine ⟨by rw [buffer]; rfl, by rw [buffer]; exact valid, fun long => ?_⟩
  rw [sendPacket, Packet.bytes, ByteBuffer.length_contents] at long
  rw [sendPacket, Packet.bytes, take_drop_contents _ long]
  exact valid

/-- Both ICMP errors state their own length. -/
theorem errorLength_sendBuffer (router : RouterState) (interface : Int) {payload : ByteBuffer}
    (stated : get16 payload ipTotLen = icmpErrorTotLen) :
    ∀ emission ∈ (sendBuffer router interface
        { router.m with len := icmpErrorLen, payload := payload }).2,
      emission.bytes.length =
        sizeofEtherHeader + wordSum ((emission.bytes.drop ipTotLen.offset).take 2) := by
  intro emission member
  obtain rfl := List.mem_singleton.mp member
  rw [sendPacket, Packet.bytes, ByteBuffer.length_contents,
    take_drop_contents _ (by decide : ipTotLen.offset + 2 ≤ icmpErrorLen),
    wordSum_field, stated]
  exact (by decide : icmpErrorLen = sizeofEtherHeader + (htons icmpErrorTotLen).toNat)

/-- A destination unreachable declares the length that is sent. -/
theorem totLen_destinationUnreachable (payload : ByteBuffer) :
    get16 (destinationUnreachable payload) ipTotLen = icmpErrorTotLen := by
  refine (get16_congr fun i low high => ?_).trans
    (get16_set16 (swapMacs payload) ipTotLen _)
  have before (offset : Nat) (later : 18 ≤ offset) : i ≠ offset := by
    have bound : i < 18 := high
    omega
  have bound : i < 18 := high
  simp only [destinationUnreachable]
  rw [setIcmpChecksum_apply_outside (.inl (by omega)), set8_apply_other (before _ (by decide)),
    set8_apply_other (before _ (by decide)), swapAddrs_apply_outside (.inl (by omega)),
    setIpCheck_apply_outside (.inl (by omega)), set8_apply_other (before _ (by decide)),
    set8_apply_other (before _ (by decide))]

/-- A time exceeded declares the length that is sent. -/
theorem totLen_timeExceeded (payload : ByteBuffer) :
    get16 (timeExceeded payload) ipTotLen = icmpErrorTotLen := by
  refine (get16_congr fun i low high => ?_).trans
    (get16_set16 (set8 (set8 payload ipTtl 64) ipProtocol 1) ipTotLen _)
  have from16 : 16 ≤ i := low
  have bound : i < 18 := high
  simp only [timeExceeded]
  rw [setIcmpChecksum_apply_outside (.inl (by omega)),
    set8_apply_other (Nat.ne_of_lt (Nat.lt_of_lt_of_le bound (by decide))),
    setIpCheck_apply_outside (.inl (by omega)), swapAddrs_apply_outside (.inl (by omega)),
    swapMacs_apply_outside (by omega)]

/-- An ARP request has the type of ARP. -/
theorem arpRequest_type (host : Host) (route : RouteTableEntry) (packet : Packet) :
    ((arpRequest host route packet).bytes.drop etherType.offset).take 2 = [0x08, 0x06] := by
  rw [take_drop_bytes (by simp only [arpRequest]; decide), get_eq_bytes16,
    (arpRequest_fields host route packet).type]
  rfl

/-- Every IPv4 frame the IPv4 branch emits has a valid header, and both ICMP
errors have the length their header states. -/
theorem emitted_headers_valid (host : Host) (router : RouterState) (frame : Frame)
    (ipv4 : get16 (router.receive frame).m.payload etherType = htons 0x0800) :
    ∀ emission ∈ (handle host (router.receive frame)).2,
      (emission.bytes.drop etherType.offset).take 2 ≠ [0x08, 0x06] →
      HeaderValid (handle host (router.receive frame)).1 emission ∧
        (¬ IsEchoRequest host (router.receive frame) →
          (Unroutable (router.receive frame) ∨ Expired (router.receive frame)) →
          emission.bytes.length =
            sizeofEtherHeader + wordSum ((emission.bytes.drop ipTotLen.offset).take 2)) := by
  have handled : handle host (router.receive frame) = handleIpv4 host (router.receive frame) :=
    if_pos ipv4
  rw [handled]
  generalize router.receive frame = received
  intro emission member notArp
  rcases ipv4Outcome host received with ⟨request, handled⟩ | ⟨notEcho, unroutable, handled⟩ |
    ⟨notEcho, routed, expired, handled⟩ | ⟨notEcho, routed, alive, mismatch, handled⟩ |
    ⟨notEcho, routed, alive, checked, missed, handled⟩ |
    ⟨notEcho, routed, alive, checked, index, inTable, entry, found, handled⟩
  all_goals rw [handled] at member ⊢
  · exact ⟨headerValid_sendBuffer received _ (echoReplyPacket received) (headerSum_echoReply _)
      emission member,
      fun notEcho => absurd request notEcho⟩
  · exact ⟨headerValid_sendBuffer received _ (unreachablePacket received)
      (headerSum_destinationUnreachable _) emission member,
      fun _ _ => errorLength_sendBuffer received _ (totLen_destinationUnreachable _) emission
        member⟩
  · exact ⟨headerValid_sendBuffer received _ (expiredPacket received) (headerSum_timeExceeded _)
      emission member,
      fun _ _ => errorLength_sendBuffer received _ (totLen_timeExceeded _) emission member⟩
  · cases member
  · refine ⟨headerValid_sendBuffer received _ (missedPacket received) ?_ emission member,
      fun _ error => ?_⟩
    · refine (headerSum_congr fun i low _ => ?_).trans (headerSum_forwardedPayload alive)
      simp only [missedPacket]
      rw [copyMac_apply_outside (by omega),
        set_apply_outside (by simp only [etherShost]; omega)]
    · exact absurd error (not_or.mpr ⟨routed, alive⟩)
  · obtain rfl := List.mem_singleton.mp member
    exact absurd (arpRequest_type host received.route (foundPacket received)) notArp

/-- A packet from 10.0.0.5 to 172.16.0.1, to which there is no route. -/
def unroutableFrame : Frame where
  interface := 0
  bytes :=
    [0x02, 0, 0, 0, 0, 0, 0x02, 0, 0, 0, 0, 0x99, 0x08, 0x00,
      0x45, 0, 0, 0x1c, 0, 0, 0, 0, 0x40, 0x11, 0, 0, 10, 0, 0, 5, 172, 16, 0, 1,
      0, 1, 0, 2, 0, 8, 0, 0]

/-- The frame the router emits for `unroutableFrame`. -/
def unroutableAnswer : Emission :=
  (handle sampleHost (sampleRouter.receive unroutableFrame)).2.headD ⟨0, []⟩

theorem emitted_headers_valid_sample :
    HeaderValid (handle sampleHost (sampleRouter.receive unroutableFrame)).1 unroutableAnswer ∧
      unroutableAnswer.bytes.length =
        sizeofEtherHeader + wordSum ((unroutableAnswer.bytes.drop ipTotLen.offset).take 2) := by
  have valid := emitted_headers_valid sampleHost sampleRouter unroutableFrame (by decide +kernel)
    unroutableAnswer (by decide +kernel) (by decide +kernel)
  exact ⟨valid.1, valid.2 (by decide +kernel) (.inl (by decide +kernel))⟩

/-! ## Headers that arrive -/

/-- The packet in the receive buffer gets what its header asks for: an echo
request its reply, a packet without a route or without time to live its error,
any other packet a place on the wire or in the queue. -/
structure Processed (host : Host) (received : RouterState) : Prop where
  answered : IsEchoRequest host received →
    (handle host received).2 = [sendPacket received.m.interface (echoReplyPacket received)]
  unreachable : ¬ IsEchoRequest host received → Unroutable received →
    (handle host received).2 = [sendPacket received.m.interface (unreachablePacket received)]
  expired : ¬ IsEchoRequest host received → ¬ Unroutable received → Expired received →
    (handle host received).2 = [sendPacket received.m.interface (expiredPacket received)]
  forwarded : ¬ IsEchoRequest host received → ¬ Unroutable received → ¬ Expired received →
    (∃ bytes, (handle host received).2 = [⟨received.route.interface, bytes⟩]) ∨
      (handle host received).1.q = received.q ++ [.receiveBuffer]

/-- The header checksum decides whether a packet is processed at all. -/
structure ChecksumGates (host : Host) (router : RouterState) (frame : Frame) : Prop where
  rejects : headerSum (router.receive frame).m.payload ≠ 0xFFFF →
    (handle host (router.receive frame)).2 = [] ∧
      (handle host (router.receive frame)).1.arpTable = router.arpTable ∧
      (handle host (router.receive frame)).1.arpTableLen = router.arpTableLen ∧
      (handle host (router.receive frame)).1.q = router.q
  accepts : headerSum (router.receive frame).m.payload = 0xFFFF →
    Processed host (router.receive frame)

/-- The test of the forwarding step on a packet with a time to live: the header
adds up to all ones and its checksum field is not. -/
theorem checkMatches_iff {router : RouterState} (alive : ¬ Expired router) :
    CheckMatches router ↔
      headerSum router.m.payload = 0xFFFF ∧ get16 router.m.payload ipCheck ≠ 0xFFFF := by
  have nonzero : wordSum (router.m.payload.slice sizeofEtherHeader sizeofIphdr) ≠ 0 := by
    have ttl : router.m.payload 22 ≠ 0 := by
      intro zero
      apply alive
      rw [Expired, get8_eq]
      exact zero ▸ (by decide : (0 : UInt8) ≤ 1)
    have rest := headerRest_ne_zero ttl
    rw [wordSum_slice_eq ipCheck_checks]
    omega
  rw [headerSum, onesSum_eq_iff, CheckMatches]
  exact (checksum_matches_iff ipCheck_checks router.m.payload).trans
    (and_congr_left fun _ => ⟨fun congruent => ⟨nonzero, congruent⟩, And.right⟩)

/-- The packet is answered in front of the test of its checksum. -/
def AnsweredUnchecked (host : Host) (received : RouterState) : Prop :=
  IsEchoRequest host received ∨ Unroutable received ∨ Expired received

instance (host : Host) (received : RouterState) : Decidable (AnsweredUnchecked host received) :=
  inferInstanceAs (Decidable (_ ∨ _))

/-- A packet that is answered in front of the test is answered whatever its
checksum is. -/
theorem processed_of_answered {host : Host} {received : RouterState}
    (ipv4 : get16 received.m.payload etherType = htons 0x0800)
    (answered : AnsweredUnchecked host received) :
    Processed host received ∧ (handle host received).2 ≠ [] := by
  have branch : handle host received = handleIpv4 host received := if_pos ipv4
  rcases ipv4Outcome host received with ⟨request, handled⟩ | ⟨notEcho, unroutable, handled⟩ |
    ⟨notEcho, routed, expired, handled⟩ | ⟨notEcho, routed, alive, _, _⟩ |
    ⟨notEcho, routed, alive, _, _, _⟩ | ⟨notEcho, routed, alive, _, _, _, _, _, _⟩
  · rw [handled] at branch
    refine ⟨⟨fun _ => congrArg Prod.snd branch, fun notEcho => absurd request notEcho,
      fun notEcho => absurd request notEcho, fun notEcho => absurd request notEcho⟩, ?_⟩
    rw [branch]
    exact List.cons_ne_nil _ _
  · rw [handled] at branch
    refine ⟨⟨fun request => absurd request notEcho, fun _ _ => congrArg Prod.snd branch,
      fun _ routed => absurd unroutable routed, fun _ routed => absurd unroutable routed⟩, ?_⟩
    rw [branch]
    exact List.cons_ne_nil _ _
  · rw [handled] at branch
    refine ⟨⟨fun request => absurd request notEcho, fun _ unroutable => absurd unroutable routed,
      fun _ _ _ => congrArg Prod.snd branch, fun _ _ alive => absurd expired alive⟩, ?_⟩
    rw [branch]
    exact List.cons_ne_nil _ _
  all_goals exact absurd answered (not_or.mpr ⟨notEcho, not_or.mpr ⟨routed, alive⟩⟩)

/-- A packet whose checksum is tested is processed if it passes and dropped if
it does not. -/
theorem processed_of_tested {host : Host} {received : RouterState}
    (ipv4 : get16 received.m.payload etherType = htons 0x0800)
    (tested : ¬ AnsweredUnchecked host received) :
    (CheckMatches received → Processed host received) ∧
      (¬ CheckMatches received → handle host received = (received.store .receiveBuffer
        { received.m with payload := setIpCheck received.m.payload }, [])) := by
  have branch : handle host received = handleIpv4 host received := if_pos ipv4
  obtain ⟨notEcho, other⟩ := not_or.mp tested
  obtain ⟨routed, alive⟩ := not_or.mp other
  have forwards (sent : (∃ bytes, (handle host received).2 = [⟨received.route.interface, bytes⟩]) ∨
      (handle host received).1.q = received.q ++ [.receiveBuffer]) : Processed host received :=
    ⟨fun request => absurd request notEcho, fun _ unroutable => absurd unroutable routed,
      fun _ _ expired => absurd expired alive, fun _ _ _ => sent⟩
  rcases ipv4Outcome host received with ⟨request, _⟩ | ⟨_, unroutable, _⟩ | ⟨_, _, expired, _⟩ |
    ⟨_, _, _, mismatch, handled⟩ | ⟨_, _, _, checked, _, handled⟩ |
    ⟨_, _, _, checked, _, _, _, _, handled⟩
  · exact absurd request notEcho
  · exact absurd unroutable routed
  · exact absurd expired alive
  · exact ⟨fun matching => absurd matching mismatch, fun _ => branch.trans handled⟩
  · refine ⟨fun _ => forwards (.inl ⟨(missedPacket received).bytes, ?_⟩),
      fun mismatch => absurd checked mismatch⟩
    rw [branch, handled]
    rfl
  · refine ⟨fun _ => forwards (.inr ?_), fun mismatch => absurd checked mismatch⟩
    rw [branch, handled]
    rfl

/-- The header checksum gates the processing of a packet exactly when a wrong
one is tested at all and a right one is not the other zero. -/
theorem checksumGates_iff (host : Host) (router : RouterState) (frame : Frame)
    (ipv4 : get16 (router.receive frame).m.payload etherType = htons 0x0800) :
    ChecksumGates host router frame ↔
      (headerSum (router.receive frame).m.payload ≠ 0xFFFF →
        ¬ AnsweredUnchecked host (router.receive frame)) ∧
      (headerSum (router.receive frame).m.payload = 0xFFFF →
        AnsweredUnchecked host (router.receive frame) ∨
          get16 (router.receive frame).m.payload ipCheck ≠ 0xFFFF) := by
  by_cases answered : AnsweredUnchecked host (router.receive frame)
  · obtain ⟨processed, speaks⟩ := processed_of_answered ipv4 answered
    constructor
    · intro gates
      exact ⟨fun wrong => absurd (gates.rejects wrong).1 speaks, fun _ => .inl answered⟩
    · rintro ⟨rejects, _⟩
      exact ⟨fun wrong => absurd answered (rejects wrong), fun _ => processed⟩
  · obtain ⟨passes, drops⟩ := processed_of_tested ipv4 answered
    have alive : ¬ Expired (router.receive frame) := fun expired =>
      answered (.inr (.inr expired))
    have test := checkMatches_iff alive
    constructor
    · intro gates
      refine ⟨fun _ => answered, fun right => .inr fun allOnes => ?_⟩
      have dropped := drops fun matching => (test.mp matching).2 allOnes
      obtain ⟨notEcho, other⟩ := not_or.mp answered
      obtain ⟨routed, _⟩ := not_or.mp other
      rcases (gates.accepts right).forwarded notEcho routed alive with ⟨bytes, sent⟩ | queued
      · rw [dropped] at sent
        cases sent
      · rw [dropped] at queued
        simp at queued
    · rintro ⟨_, accepts⟩
      refine ⟨fun wrong => ?_, fun right => passes (test.mpr ⟨right, ?_⟩)⟩
      · rw [drops fun matching => wrong (test.mp matching).1]
        exact ⟨rfl, rfl, rfl, rfl⟩
      · exact (accepts right).resolve_left answered

/-- A UDP packet with a right checksum is sent on. -/
theorem checksumGates_iff_sample : ChecksumGates sampleHost sampleRouter sampleFrame :=
  (checksumGates_iff sampleHost sampleRouter sampleFrame (by decide +kernel)).mpr
    ⟨by decide +kernel, by decide +kernel⟩

/-- An echo request from 10.0.0.5 to the router's interface 0, with a wrong
header checksum. -/
def uncheckedEcho : Frame where
  interface := 0
  bytes :=
    [0x02, 0, 0, 0, 0, 0, 0x02, 0, 0, 0, 0, 0x99, 0x08, 0x00,
      0x45, 0, 0, 0x1c, 0, 0, 0, 0, 0x40, 0x01, 0, 0, 10, 0, 0, 5, 192, 168, 0, 1,
      8, 0, 0xf7, 0xff, 0, 0, 0, 0]

/-- An echo request with a wrong header checksum is answered. -/
theorem wrong_checksum_answered :
    Initial sampleRouter ∧ uncheckedEcho.bytes[14]? = some 0x45 ∧
      get16 (sampleRouter.receive uncheckedEcho).m.payload etherType = htons 0x0800 ∧
      ¬ ChecksumGates sampleHost sampleRouter uncheckedEcho := by
  refine ⟨sampleRouter_initial, rfl, by decide +kernel, fun gates => ?_⟩
  have silent := (gates.rejects (by decide +kernel)).1
  exact absurd silent (by decide +kernel)

end CommunicationProtocols.Router
