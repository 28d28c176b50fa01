import CommunicationProtocols.Router.HeaderChecksum
import CommunicationProtocols.Router.InternetChecksum
import CommunicationProtocols.Router.Parking

/-!
# What forwarding does to a packet

A packet that is forwarded leaves as it came, except for the Ethernet addresses,
the time to live and the header checksum. All the edits happen in the one
receive buffer, some of them twice.
-/

namespace CommunicationProtocols.Router

open Library Library.ByteBuffer

/-- The packet in `payload'` has one hop less to live than the one in `payload`,
a checksum to match, and otherwise the same bytes behind the Ethernet addresses. -/
structure OneHopLess (payload payload' : ByteBuffer) : Prop where
  received : 2 ≤ get8 payload ipTtl
  left : 1 ≤ get8 payload' ipTtl
  ttl : (get8 payload' ipTtl).toNat + 1 = (get8 payload ipTtl).toNat
  check : get16 payload' ipCheck =
    ipChecksum (set16 payload' ipCheck 0) sizeofEtherHeader sizeofIphdr
  untouched : ∀ i, 12 ≤ i → i ≠ 22 → i ≠ 24 → i ≠ 25 → payload' i = payload i

/-- The frame is the packet in the receive buffer, forwarded along its best route. -/
structure ForwardedCopy (received : RouterState) (emission : Emission) : Prop where
  interface : emission.interface = received.route.interface
  copied : ∃ payload', emission.bytes = payload'.contents received.m.len ∧
    OneHopLess received.m.payload payload'

/-- The frame is one of the three answers the router gives to a packet itself. -/
def IsAnswer (received : RouterState) (emission : Emission) : Prop :=
  emission = sendPacket received.m.interface (echoReplyPacket received) ∨
    emission = sendPacket received.m.interface (unreachablePacket received) ∨
    emission = sendPacket received.m.interface (expiredPacket received)

/-- Handling the IPv4 packet in the receive buffer emits one frame at most. On
the forwarding path it is the ARP request or a copy of the packet; a packet
without time to live left is answered and never queued. -/
structure Transparent (host : Host) (received : RouterState) : Prop where
  single : (handle host received).2.length ≤ 1
  forwarded : ¬ AnsweredUnchecked host received → ∀ emission ∈ (handle host received).2,
    (emission.bytes.drop etherType.offset).take 2 ≠ [0x08, 0x06] →
      ForwardedCopy received emission
  spent : Expired received → (handle host received).1.q = received.q ∧
    ∀ emission ∈ (handle host received).2, IsAnswer received emission

section

variable {payload payload' : ByteBuffer}

/-- Forwarding takes one from the time to live. -/
theorem forwardedPayload_ttl (payload : ByteBuffer) :
    get8 (forwardedPayload payload) ipTtl = get8 payload ipTtl - 1 := by
  have kept (payload : ByteBuffer) : get8 (setIpCheck payload) ipTtl = get8 payload ipTtl := by
    rw [get8_eq, get8_eq]
    exact setIpCheck_apply_outside (.inl (by decide))
  simp only [forwardedPayload]
  rw [kept, get8_eq, set8_apply_same, kept]

/-- A forwarded packet has the checksum of its header with the field zeroed. -/
theorem forwardedPayload_check (payload : ByteBuffer) :
    get16 (forwardedPayload payload) ipCheck =
      ipChecksum (set16 (forwardedPayload payload) ipCheck 0) sizeofEtherHeader sizeofIphdr := by
  simp only [forwardedPayload]
  rw [setIpCheck_check]
  apply zeroedHeader_congr
  intro i _ _ notCheck notCheck'
  exact (setIpCheck_apply_outside (by omega)).symm

/-- New Ethernet addresses do not change what a forwarded packet is. -/
theorem oneHopLess_of_forwarded (alive : ¬ get8 payload ipTtl ≤ 1)
    (same : ∀ i, 12 ≤ i → payload' i = forwardedPayload payload i) :
    OneHopLess payload payload' := by
  have received : 2 ≤ (get8 payload ipTtl).toNat := by
    have above : ¬ (get8 payload ipTtl).toNat ≤ 1 := fun le =>
      alive (UInt8.le_iff_toNat_le.mpr le)
    omega
  have left : get8 payload' ipTtl = get8 payload ipTtl - 1 := by
    rw [get8_eq, same _ (by decide), ← get8_eq (forwardedPayload payload), forwardedPayload_ttl]
  have value : (get8 payload ipTtl - 1).toNat = (get8 payload ipTtl).toNat - 1 :=
    UInt8.toNat_sub_of_le _ _ (UInt8.le_iff_toNat_le.mpr (Nat.le_of_succ_le received))
  refine ⟨UInt8.le_iff_toNat_le.mpr received, ?_, ?_, ?_, ?_⟩
  · rw [left]
    exact UInt8.le_iff_toNat_le.mpr (by rw [value]; exact Nat.le_sub_one_of_lt received)
  · rw [left, value]
    omega
  · rw [get16_congr fun i low _ => same i (Nat.le_trans (by decide) low), forwardedPayload_check]
    exact zeroedHeader_congr fun i low _ _ _ => (same i (by omega)).symm
  · intro i behind notTtl notCheck notCheck'
    rw [same i behind, forwardedPayload_apply_outside notTtl notCheck notCheck']

end

/-! ## The ways through the IPv4 branch -/

section

variable {host : Host} {received : RouterState}

/-- A packet the router answers itself is not forwarded and not queued. -/
theorem transparent_of_answer {packet : Packet}
    (handled : handle host received = sendBuffer received received.m.interface packet)
    (answered : AnsweredUnchecked host received)
    (answer : IsAnswer received (sendPacket received.m.interface packet)) :
    Transparent host received := by
  constructor <;> rw [handled]
  case single => exact Nat.le_refl 1
  case forwarded => exact fun notAnswered => absurd answered notAnswered
  case spent =>
    refine fun _ => ⟨rfl, fun emitted member => ?_⟩
    obtain rfl := List.mem_singleton.mp member
    exact answer

/-- A packet with time to live left is forwarded or asked for, if it is not dropped. -/
theorem transparent_of_alive {result : RouterState × List Emission}
    (handled : handle host received = result) (alive : ¬ Expired received)
    (single : result.2.length ≤ 1)
    (forwarded : ∀ emission ∈ result.2,
      (emission.bytes.drop etherType.offset).take 2 ≠ [0x08, 0x06] →
        ForwardedCopy received emission) : Transparent host received := by
  constructor <;> rw [handled]
  case single => exact single
  case forwarded => exact fun _ => forwarded
  case spent => exact fun expired => absurd expired alive

/-- Handling an IPv4 packet is transparent, whatever the state of the router is. -/
theorem transparent_of_ipv4 (ipv4 : get16 received.m.payload etherType = htons 0x0800) :
    Transparent host received := by
  have branch : handle host received = handleIpv4 host received := if_pos ipv4
  rcases ipv4Outcome host received with ⟨request, handled⟩ | ⟨notEcho, unroutable, handled⟩ |
    ⟨notEcho, routed, expired, handled⟩ | ⟨notEcho, routed, alive, mismatch, handled⟩ |
    ⟨notEcho, routed, alive, checked, missed, handled⟩ |
    ⟨notEcho, routed, alive, checked, index, inTable, entry, found, handled⟩
  all_goals rw [← branch] at handled
  case echo => exact transparent_of_answer handled (.inl request) (.inl rfl)
  case unreachable =>
    exact transparent_of_answer handled (.inr (.inl unroutable)) (.inr (.inl rfl))
  case expired => exact transparent_of_answer handled (.inr (.inr expired)) (.inr (.inr rfl))
  case dropped =>
    refine transparent_of_alive handled alive (Nat.zero_le 1) fun emission member => ?_
    cases member
  case missed =>
    refine transparent_of_alive handled alive (Nat.le_refl 1) fun emission member _ => ?_
    obtain rfl := List.mem_singleton.mp member
    refine ⟨rfl, (missedPacket received).payload, rfl, oneHopLess_of_forwarded alive ?_⟩
    intro i behind
    simp only [missedPacket]
    rw [copyMac_apply_outside (by omega), set_apply_outside (by simp only [etherShost]; omega)]
  case found =>
    refine transparent_of_alive handled alive (Nat.le_refl 1) fun emission member notArp => ?_
    obtain rfl := List.mem_singleton.mp member
    exact absurd (arpRequest_type host received.route (foundPacket received)) notArp

end

/-! ## Nothing is forwarded later -/

/-- A packet of another type leaves as a frame of another type. -/
theorem bytes_notIpv4 {packet : Packet}
    (notIpv4 : get16 packet.payload etherType ≠ htons 0x0800) :
    (packet.bytes.drop etherType.offset).take 2 ≠ [0x08, 0x00] := by
  intro typed
  by_cases framed : etherType.offset + 2 ≤ packet.len
  · rw [take_drop_bytes framed, get_eq_bytes16] at typed
    have bytes : bytes16 (get16 packet.payload etherType) = bytes16 (htons 0x0800) :=
      Vector.toList_inj.mp typed
    exact notIpv4 (by rw [← word16_bytes16 (get16 _ _), bytes, word16_bytes16])
  · have short := congrArg List.length typed
    rw [List.length_take, List.length_drop, Packet.length_bytes, List.length_cons,
      List.length_singleton] at short
    omega

/-- An ARP reply keeps the type of the request. -/
theorem arpReply_type (host : Host) (packet : Packet) :
    get16 (arpReply host packet).payload etherType = get16 packet.payload etherType := by
  simp (disch := omega) only [arpReply, get16, set16, Field.get, Field.set, etherType, etherDhost,
    etherShost, arpOp, arpSpa, arpSha, arpTpa, arpTha, read_write_disjoint]

/-- Only the handling of an IPv4 packet emits IPv4 frames: what the queue reaches when an ARP
reply releases it is the reply. -/
theorem ipv4_of_emission {host : Host} {received : RouterState} (aliased : Aliased received)
    {emission : Emission} (member : emission ∈ (handle host received).2)
    (typed : (emission.bytes.drop etherType.offset).take 2 = [0x08, 0x00]) :
    get16 received.m.payload etherType = htons 0x0800 := by
  by_contra notIpv4
  rcases handleOutcome host received with ⟨ipv4, _, _⟩ | ⟨_, _, handled⟩ | ⟨_, reply, _⟩ |
    ⟨_, _, handled⟩
  case ipv4 => exact notIpv4 ipv4
  case answered =>
    rw [handled] at member
    obtain rfl := List.mem_singleton.mp member
    exact bytes_notIpv4 (by rwa [arpReply_type]) typed
  case replied =>
    obtain ⟨sent, same, rfl⟩ := (reply_same aliased reply).2 emission member
    refine bytes_notIpv4 (fun ipv4 => notIpv4 ?_) typed
    exact (get16_congr fun i low _ => (same.payload i (Nat.le_trans (by decide) low)).symm).trans
      ipv4
  case ignored =>
    rw [handled] at member
    cases member

/-- Forwarding is transparent, whatever the state of the router is, and in a run of the
router every IPv4 frame is emitted while the packet it comes from is handled. -/
theorem forwarding_transparent (host : Host) :
    (∀ (router : RouterState) (frame : Frame),
      get16 (router.receive frame).m.payload etherType = htons 0x0800 →
        Transparent host (router.receive frame)) ∧
      ∀ (start final : RouterState) (trace : List (Transition RouterState Frame Emission)),
        Initial start → (machine host).Run start trace final → ∀ transition ∈ trace,
          ∀ emission ∈ transition.outputs,
            (emission.bytes.drop etherType.offset).take 2 = [0x08, 0x00] →
              get16 (transition.before.receive transition.event).m.payload etherType =
                htons 0x0800 := by
  refine ⟨fun router frame ipv4 => transparent_of_ipv4 ipv4, ?_⟩
  intro start final trace initial run transition member emission emitted typed
  obtain ⟨genuine, aliased⟩ :=
    run.transitions aliased_preserved (initial_aliased initial) transition member
  have outputs : (handle host (transition.before.receive transition.event)).2 =
      transition.outputs := congrArg Prod.snd (Option.some.inj genuine.stepped)
  have received : Aliased (transition.before.receive transition.event) := aliased
  exact ipv4_of_emission received (outputs ▸ emitted) typed

/-- The first packet of `sampleRouter` is forwarded transparently. -/
theorem forwarding_transparent_sample : Transparent sampleHost (sampleRouter.receive sampleFrame) :=
  (forwarding_transparent sampleHost).1 sampleRouter sampleFrame sampleFrame_reaches.ipv4

end CommunicationProtocols.Router
