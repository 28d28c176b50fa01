import CommunicationProtocols.Router.Checksum
import CommunicationProtocols.Router.Ipv4
import CommunicationProtocols.Router.Parking

/-!
# Link-layer source addresses

A frame that leaves on an interface should carry that interface's hardware
address as its source. The replies do, since they exchange the addresses of a
frame that was sent to the interface they leave on. The forwarding step keeps
the address of the interface the packet came in on, the ARP request is sent on
the interface the packet came from, and the flush does not touch the source.
-/

namespace CommunicationProtocols.Router

open Library Library.ByteBuffer

variable {payload payload' : ByteBuffer} {i : Nat}

/-- A frame with an Ethernet header that was sent to the interface it arrived
on, or to everybody if it is an ARP packet. -/
structure Addressed (host : Host) (packet : Packet) : Prop where
  framed : sizeofEtherHeader ≤ packet.len
  destination : etherDhost.get packet.payload = host.interfaceMac packet.interface ∨
    (get16 packet.payload etherType = htons 0x0806 ∧
      etherDhost.get packet.payload = Vector.replicate 6 255)

/-- An emission carries the hardware address of its interface, and an ARP
request asks in the name of its interface. -/
structure SourceConsistent (host : Host) (emission : Emission) : Prop where
  source : (emission.bytes.drop etherShost.offset).take 6 =
    (host.interfaceMac emission.interface).toList
  request : (emission.bytes.drop etherType.offset).take 2 = [0x08, 0x06] →
    (emission.bytes.drop arpOp.offset).take 2 = [0, 1] →
    (emission.bytes.drop arpSha.offset).take 6 = (host.interfaceMac emission.interface).toList ∧
      (emission.bytes.drop arpSpa.offset).take 4 =
        (bytes32 (host.interfaceIp emission.interface)).toList

/-! ## The Ethernet header of the replies -/

/-- The Ethernet header with its addresses swapped depends on the header only. -/
theorem swapMacs_congr (same : ∀ i, i < 14 → payload i = payload' i) (bound : i < 14) :
    swapMacs payload i = swapMacs payload' i := by
  rw [swapMacs_apply, swapMacs_apply, same (i - 6) (by omega), same i bound]
  by_cases low : i < 6
  · rw [if_pos low, if_pos low, same (i + 6) (by omega)]
  · rw [if_neg low, if_neg low]

/-- The replies exchange the hardware addresses and keep the type. -/
theorem echoReply_front (payload : ByteBuffer) (bound : i < 14) :
    echoReply payload i = swapMacs payload i := by
  simp only [echoReply]
  rw [setIcmpChecksum_apply_outside (.inl (by omega)), setIpCheck_apply_outside (.inl (by omega)),
    swapAddrs_apply_outside (.inl (by omega))]
  refine swapMacs_congr (fun i bound => ?_) bound
  rw [set8_apply_other (by simp only [ipTtl]; omega),
    set8_apply_other (by simp only [icmpType]; omega)]

/-- A destination unreachable has the Ethernet addresses swapped. -/
theorem destinationUnreachable_front (payload : ByteBuffer) (bound : i < 14) :
    destinationUnreachable payload i = swapMacs payload i := by
  simp only [destinationUnreachable]
  rw [setIcmpChecksum_apply_outside (.inl (by omega)),
    set8_apply_other (by simp only [icmpCode]; omega),
    set8_apply_other (by simp only [icmpType]; omega), swapAddrs_apply_outside (.inl (by omega)),
    setIpCheck_apply_outside (.inl (by omega)), set8_apply_other (by simp only [ipProtocol]; omega),
    set8_apply_other (by simp only [ipTtl]; omega),
    set16_apply_outside (.inl (by simp only [ipTotLen]; omega))]

/-- A time exceeded has the Ethernet addresses swapped. -/
theorem timeExceeded_front (payload : ByteBuffer) (bound : i < 14) :
    timeExceeded payload i = swapMacs payload i := by
  simp only [timeExceeded]
  rw [setIcmpChecksum_apply_outside (.inl (by omega)),
    set8_apply_other (by simp only [icmpType]; omega), setIpCheck_apply_outside (.inl (by omega)),
    swapAddrs_apply_outside (.inl (by omega))]
  refine swapMacs_congr (fun i bound => ?_) bound
  rw [set16_apply_outside (.inl (by simp only [ipTotLen]; omega)),
    set8_apply_other (by simp only [ipProtocol]; omega),
    set8_apply_other (by simp only [ipTtl]; omega)]

/-! ## What is emitted -/

/-- A field with another value is other bytes on the wire. -/
theorem take_drop_ne {packet : Packet} {field : Field 2} {value other : BitVec 16}
    (fits : field.offset + 2 ≤ packet.len) (holds : get16 packet.payload field = value)
    (differs : value ≠ other) :
    (packet.bytes.drop field.offset).take 2 ≠ (bytes16 other).toList := by
  intro same
  rw [take_drop_bytes fits, get_eq_bytes16, holds, Vector.toList_inj] at same
  exact differs (by simpa using congrArg word16 same)

/-- The source address of a packet on the wire. -/
theorem take_drop_source {interface : Int} {packet : Packet}
    (framed : sizeofEtherHeader ≤ packet.len) :
    ((sendPacket interface packet).bytes.drop etherShost.offset).take 6 =
      (etherShost.get packet.payload).toList := by
  rw [sizeofEtherHeader] at framed
  exact take_drop_bytes (by simp only [etherShost]; omega)

/-- A frame of another type than ARP is consistent if its source address is. -/
theorem sourceConsistent_iff_source {host : Host} {interface : Int} {packet : Packet}
    (framed : sizeofEtherHeader ≤ packet.len)
    (type : get16 packet.payload etherType = htons 0x0800) :
    SourceConsistent host (sendPacket interface packet) ↔
      etherShost.get packet.payload = host.interfaceMac interface := by
  have typed : etherType.offset + 2 ≤ packet.len := framed
  have notArp := take_drop_ne typed type htons_ipv4_ne_arp
  rw [← Vector.toList_inj, ← take_drop_source framed]
  exact ⟨SourceConsistent.source, fun holds => ⟨holds, fun arp => absurd arp notArp⟩⟩

/-- A reply that exchanges the hardware addresses leaves with its own. -/
theorem sourceConsistent_of_swapMacs {host : Host} {packet reply : Packet}
    (framed : sizeofEtherHeader ≤ reply.len) (ipv4 : get16 packet.payload etherType = htons 0x0800)
    (front : ∀ i, i < 14 → reply.payload i = swapMacs packet.payload i)
    (destination : etherDhost.get packet.payload = host.interfaceMac packet.interface) :
    SourceConsistent host (sendPacket packet.interface reply) := by
  have type : get16 reply.payload etherType = htons 0x0800 := by
    rw [← ipv4]
    refine get16_congr fun i low high => ?_
    have from12 : 12 ≤ i := low
    rw [front i high, swapMacs_apply_outside from12]
  refine (sourceConsistent_iff_source framed type).mpr ?_
  rw [← destination]
  refine Vector.ext fun i bound => ?_
  simp only [Field.get, getElem_read, etherShost, etherDhost]
  rw [front _ (by omega), swapMacs_apply, if_neg (by omega), if_pos (by omega)]
  congr 1
  omega

section

variable {host : Host} {router : RouterState}

/-- A frame of type IPv4 was sent to the interface it arrived on. -/
theorem Addressed.own {packet : Packet} (addressed : Addressed host packet)
    (ipv4 : get16 packet.payload etherType = htons 0x0800) :
    etherDhost.get packet.payload = host.interfaceMac packet.interface := by
  rcases addressed.destination with own | ⟨arp, _⟩
  · exact own
  · exact absurd (ipv4.symm.trans arp) htons_ipv4_ne_arp

/-- A forwarded packet keeps the address it was sent to as its source. -/
theorem missed_consistent_iff (addressed : Addressed host router.m)
    (ipv4 : get16 router.m.payload etherType = htons 0x0800) :
    SourceConsistent host (sendPacket router.route.interface (missedPacket router)) ↔
      host.interfaceMac router.route.interface = host.interfaceMac router.m.interface := by
  have kept (i : Nat) (bound : i < 22) :
      forwardedPayload router.m.payload i = router.m.payload i := by
    simp only [forwardedPayload]
    rw [setIpCheck_apply_outside (.inl (by omega)), set8_apply_other (by simp only [ipTtl]; omega),
      setIpCheck_apply_outside (.inl (by omega))]
  have type : get16 (missedPacket router).payload etherType = htons 0x0800 := by
    rw [← ipv4]
    refine get16_congr fun i low high => ?_
    have from12 : 12 ≤ i := low
    have bound : i < 14 := high
    simp only [missedPacket]
    rw [copyMac_apply_outside (by omega), set_apply_outside (by simp only [etherShost]; omega),
      kept i (by omega)]
  have source : etherShost.get (missedPacket router).payload =
      etherDhost.get router.m.payload := by
    refine Vector.ext fun i bound => ?_
    have copied : (missedPacket router).payload (6 + i) =
        (etherDhost.get (forwardedPayload router.m.payload))[i] :=
      (copyMac_apply_outside (by omega)).trans (write_apply_inside _ 6 _ i bound)
    simp only [Field.get, getElem_read, etherShost, etherDhost] at copied ⊢
    rw [copied, kept _ (by omega)]
  have framed : sizeofEtherHeader ≤ (missedPacket router).len := addressed.framed
  rw [sourceConsistent_iff_source framed type, source, addressed.own ipv4]
  exact eq_comm

/-- The ARP request names the interface of the route and leaves on another. -/
theorem request_consistent_iff :
    SourceConsistent host (sendPacket router.m.interface
      (arpRequest host router.route (foundPacket router))) ↔
      host.interfaceMac router.route.interface = host.interfaceMac router.m.interface ∧
        host.interfaceIp router.route.interface = host.interfaceIp router.m.interface := by
  have fields := arpRequest_fields host router.route (foundPacket router)
  have addresses : bytes32 (host.interfaceIp router.route.interface) =
      bytes32 (host.interfaceIp router.m.interface) ↔
        host.interfaceIp router.route.interface = host.interfaceIp router.m.interface :=
    ⟨fun same => by simpa using congrArg word32 same, congrArg bytes32⟩
  have part {n : Nat} (field : Field n) (fits : field.offset + n ≤ 42) :
      ((sendPacket router.m.interface
        (arpRequest host router.route (foundPacket router))).bytes.drop field.offset).take n =
        (field.get (arpRequest host router.route (foundPacket router)).payload).toList :=
    take_drop_bytes fits
  rw [← addresses]
  constructor
  · intro consistent
    have source := consistent.source
    have request := consistent.request
    rw [part etherShost (by decide), fields.shost, Vector.toList_inj] at source
    rw [part etherType (by decide), part arpOp (by decide), part arpSha (by decide),
      part arpSpa (by decide), get_eq_bytes16, get_eq_bytes16, fields.type, fields.op, fields.spa]
      at request
    exact ⟨source, Vector.toList_inj.mp (request rfl rfl).2⟩
  · rintro ⟨macs, ips⟩
    refine ⟨?_, fun _ _ => ⟨?_, ?_⟩⟩
    · rw [part etherShost (by decide), fields.shost, macs]
      rfl
    · rw [part arpSha (by decide), fields.sha, macs]
      rfl
    · rw [part arpSpa (by decide), fields.spa, ips]
      rfl

/-- A frame that is no ARP request is consistent if its source address is. -/
theorem sourceConsistent_iff_of_reply {interface : Int} {packet : Packet}
    (framed : sizeofEtherHeader ≤ packet.len) (op : get16 packet.payload arpOp = htons 2) :
    SourceConsistent host (sendPacket interface packet) ↔
      etherShost.get packet.payload = host.interfaceMac interface := by
  have notRequest : ((sendPacket interface packet).bytes.drop arpOp.offset).take 2 ≠ [0, 1] := by
    rcases Nat.lt_or_ge packet.len (arpOp.offset + 2) with short | whole
    · intro same
      have length := congrArg List.length same
      simp [sendPacket, Packet.length_bytes, arpOp] at length short
      omega
    · exact take_drop_ne whole op htons_request_ne_reply.symm
  rw [← Vector.toList_inj, ← take_drop_source framed]
  exact ⟨SourceConsistent.source, fun holds => ⟨holds, fun _ request => absurd request notRequest⟩⟩

/-- The reply to an ARP request carries the address of its interface. -/
theorem arpReply_consistent (framed : sizeofEtherHeader ≤ router.m.len) :
    SourceConsistent host (sendPacket router.m.interface (arpReply host router.m)) := by
  have kept : sizeofEtherHeader ≤ (arpReply host router.m).len := framed
  refine (sourceConsistent_iff_of_reply kept ?_).mpr ?_
  · simp only [arpReply, get16, set16, Field.set, Field.get, etherShost, etherDhost, arpOp, arpSha,
      arpSpa, arpTha, arpTpa]
    simp (disch := omega) only [read_write_disjoint, read_write_same, word16_bytes16]
  · simp only [arpReply, set16, Field.set, Field.get, etherShost, etherDhost, arpOp, arpSha,
      arpSpa, arpTha, arpTpa]
    simp (disch := omega) only [read_write_disjoint, read_write_same]

/-- The ARP table of the flush has the next hop of the packet in the receive
buffer: it had it before, or it learns the sender and the sender is the next hop. -/
def FlushFindsNextHop (router : RouterState) : Prop :=
  (∃ entry ∈ arpEntries router, entry.ip = router.nextHop) ∨
    ((∀ entry ∈ arpEntries router, entry.ip = (arpSender router).ip) ∧
      (arpSender router).ip = router.nextHop)

instance (router : RouterState) : Decidable (FlushFindsNextHop router) :=
  inferInstanceAs (Decidable (_ ∨ _))

/-- The flush is silent exactly if nothing waits or the next hop is not found. -/
theorem reply_silent_iff (aliased : Aliased router) (reply : IsArpReply router) :
    (handle host router).2 = [] ↔ router.q = [] ∨ ¬ FlushFindsNextHop router := by
  have buffer : (learn router).m = router.m := congrFun (learn_packets router) _
  have rtable : (learn router).routeOf router.m = router.route := by
    rw [learn_eq]
    split <;> rfl
  have drained := @drain_eq_nil_iff (learn router) [] (learn router).q fun ptr member =>
    aliased ptr (learn_q router ▸ member)
  have found : FlushFindsNextHop router ↔ ∃ entry ∈ arpEntries (learn router),
      entry.ip = router.nextHop := by
    rw [arpEntries_learn]
    split
    case isTrue all =>
      simp only [FlushFindsNextHop, List.mem_append, List.mem_singleton, or_and_right, exists_or,
        exists_eq_left]
      exact or_congr_right (and_iff_right all)
    case isFalse other =>
      exact or_iff_left fun learned => other learned.1
  have absent : (∀ j : Nat, j < (learn router).arpTableLen → ((learn router).arpTable j).ip ≠
      bytes32 ((learn router).routeOf (learn router).m).nextHop) ↔ ¬ FlushFindsNextHop router := by
    rw [found, ← exists_entry_iff (P := fun entry => entry.ip = router.nextHop), buffer, rtable]
    simp only [not_exists, not_and]
    rfl
  have flushed : (flush (learn router)).2 = (drain (learn router) [] router.q).2.2 := by
    rw [← learn_q router]
    rfl
  rw [learn_q] at drained
  rw [handle_of_reply reply, flushed, ← absent]
  exact drained

/-- What the flush sends is consistent if the reply came from the router itself. -/
theorem reply_consistent_iff (aliased : Aliased router) (reply : IsArpReply router)
    (framed : sizeofEtherHeader ≤ router.m.len) :
    (∀ emission ∈ (handle host router).2, SourceConsistent host emission) ↔
      (router.q ≠ [] → FlushFindsNextHop router →
        etherShost.get router.m.payload = host.interfaceMac router.m.interface) := by
  have silent : (handle host router).2 = [] ↔ router.q = [] ∨ ¬ FlushFindsNextHop router :=
    reply_silent_iff aliased reply
  have sent : ∀ emission ∈ (handle host router).2, SourceConsistent host emission ↔
      etherShost.get router.m.payload = host.interfaceMac router.m.interface := by
    intro emission member
    obtain ⟨again, same, rfl⟩ := (reply_same aliased reply).2 emission member
    have source : etherShost.get again.payload = etherShost.get router.m.payload := by
      refine Vector.ext fun i bound => ?_
      simp only [Field.get, getElem_read]
      exact same.payload _ (by simp only [etherShost]; omega)
    have op : get16 again.payload arpOp = htons 2 := by
      rw [← reply.2]
      exact get16_congr fun i low _ => same.payload i (Nat.le_trans (by decide) low)
    rw [sourceConsistent_iff_of_reply (same.len ▸ framed) op, source]
  by_cases quiet : (handle host router).2 = []
  · rw [quiet]
    refine iff_of_true (fun _ member => absurd member List.not_mem_nil) fun waiting finds => ?_
    rcases silent.mp quiet with empty | missing
    · exact absurd empty waiting
    · exact absurd finds missing
  · have speaks := not_or.mp (mt silent.mpr quiet)
    obtain ⟨emission, member⟩ := List.exists_mem_of_ne_nil _ quiet
    constructor
    · exact fun all _ _ => (sent emission member).mp (all emission member)
    · exact fun holds emission member =>
        (sent emission member).mpr (holds speaks.1 (not_not.mp speaks.2))

end

/-! ## The law in every reachable state -/

/-- The cases in which a frame leaves with the source address of its interface:
a forwarded packet must leave on an interface with the address of the one it
came in on, a packet whose next hop is known also with its IP address, and an
ARP reply that finds a waiting packet must carry the address of the router. -/
structure SourcesAgree (host : Host) (received : RouterState) : Prop where
  forwarded : ReachesForwarding host received →
    host.interfaceMac received.route.interface = host.interfaceMac received.m.interface
  requested : ReachesForwarding host received →
    (∃ entry ∈ arpEntries received, entry.ip = received.nextHop) →
    host.interfaceIp received.route.interface = host.interfaceIp received.m.interface
  flushed : IsArpReply received → received.q ≠ [] → FlushFindsNextHop received →
    etherShost.get received.m.payload = host.interfaceMac received.m.interface

/-- A search that misses shows that there is no entry for the next hop. -/
theorem absent_of_missed {router : RouterState} (missed : router.search = (false, -1)) :
    ¬ ∃ entry ∈ arpEntries router, entry.ip = router.nextHop := by
  rw [← exists_entry_iff (P := fun entry => entry.ip = router.nextHop)]
  rintro ⟨i, bound, here⟩
  rcases findArp_spec router.arpTable router.nextHop router.arpTableLen 0 with
    ⟨_, absent⟩ | ⟨j, _, _, _, found⟩
  · exact absent i (by omega) (by omega) here
  · rw [RouterState.search, found] at missed
    cases missed

/-- What an IPv4 packet has sent is consistent exactly where its sources agree. -/
theorem ipv4_consistent_iff {host : Host} {received : RouterState}
    (addressed : Addressed host received.m)
    (ipv4 : get16 received.m.payload etherType = htons 0x0800) :
    (∀ emission ∈ (handleIpv4 host received).2, SourceConsistent host emission) ↔
      SourcesAgree host received := by
  have notReply : ¬ IsArpReply received := fun reply =>
    htons_ipv4_ne_arp (ipv4.symm.trans reply.1)
  have agree (forwarded : ReachesForwarding host received →
      host.interfaceMac received.route.interface = host.interfaceMac received.m.interface ∧
        ((∃ entry ∈ arpEntries received, entry.ip = received.nextHop) →
          host.interfaceIp received.route.interface =
            host.interfaceIp received.m.interface)) : SourcesAgree host received :=
    ⟨fun reaches => (forwarded reaches).1, fun reaches => (forwarded reaches).2,
      fun reply => absurd reply notReply⟩
  rcases ipv4Outcome host received with ⟨request, handled⟩ | ⟨notEcho, unroutable, handled⟩ |
    ⟨notEcho, routed, expired, handled⟩ | ⟨notEcho, routed, alive, mismatch, handled⟩ |
    ⟨notEcho, routed, alive, checked, missed, handled⟩ |
    ⟨notEcho, routed, alive, checked, index, inTable, entry, found, handled⟩
  all_goals rw [handled]
  · refine iff_of_true ?_ (agree fun reaches => absurd request reaches.notEcho)
    intro emission member
    rw [List.mem_singleton.mp member]
    exact sourceConsistent_of_swapMacs addressed.framed ipv4 (fun i => echoReply_front _)
      (addressed.own ipv4)
  · refine iff_of_true ?_ (agree fun reaches => absurd unroutable reaches.routed)
    intro emission member
    rw [List.mem_singleton.mp member]
    exact sourceConsistent_of_swapMacs (by decide : sizeofEtherHeader ≤ icmpErrorLen) ipv4
      (fun i => destinationUnreachable_front _) (addressed.own ipv4)
  · refine iff_of_true ?_ (agree fun reaches => absurd expired reaches.alive)
    intro emission member
    rw [List.mem_singleton.mp member]
    exact sourceConsistent_of_swapMacs (by decide : sizeofEtherHeader ≤ icmpErrorLen) ipv4
      (fun i => timeExceeded_front _) (addressed.own ipv4)
  · refine iff_of_true (fun _ member => absurd member List.not_mem_nil)
      (agree fun reaches => absurd reaches.checksum mismatch)
  · have reaches : ReachesForwarding host received := ⟨ipv4, notEcho, routed, alive, checked⟩
    have sent := missed_consistent_iff addressed ipv4
    constructor
    · intro all
      exact agree fun _ => ⟨sent.mp (all _ List.mem_cons_self),
        fun known => absurd known (absent_of_missed missed)⟩
    · intro agrees emission member
      rw [List.mem_singleton.mp member]
      exact sent.mpr (agrees.forwarded reaches)
  · have reaches : ReachesForwarding host received := ⟨ipv4, notEcho, routed, alive, checked⟩
    have known : ∃ entry ∈ arpEntries received, entry.ip = received.nextHop :=
      (exists_entry_iff (P := fun entry => entry.ip = received.nextHop)).mp ⟨index, inTable, entry⟩
    constructor
    · intro all
      have addresses := request_consistent_iff.mp (all _ List.mem_cons_self)
      exact agree fun _ => ⟨addresses.1, fun _ => addresses.2⟩
    · intro agrees emission member
      rw [List.mem_singleton.mp member]
      exact request_consistent_iff.mpr ⟨agrees.forwarded reaches, agrees.requested reaches known⟩

/-- What other frames have sent is consistent exactly where the sources agree. -/
theorem arp_consistent_iff {host : Host} {received : RouterState} (aliased : Aliased received)
    (addressed : Addressed host received.m)
    (notIpv4 : get16 received.m.payload etherType ≠ htons 0x0800) :
    (∀ emission ∈ (handle host received).2, SourceConsistent host emission) ↔
      SourcesAgree host received := by
  have unforwarded (reply : ¬ IsArpReply received) : SourcesAgree host received :=
    ⟨fun reaches => absurd reaches.ipv4 notIpv4, fun reaches => absurd reaches.ipv4 notIpv4,
      fun isReply => absurd isReply reply⟩
  rcases handleOutcome host received with ⟨ipv4, _, _⟩ | ⟨_, notReply, handled⟩ |
    ⟨_, reply, handled⟩ | ⟨_, notReply, handled⟩
  · exact absurd ipv4 notIpv4
  · refine iff_of_true ?_ (unforwarded notReply)
    intro emission member
    rw [handled] at member
    rw [List.mem_singleton.mp member]
    exact arpReply_consistent addressed.framed
  · refine (reply_consistent_iff aliased reply addressed.framed).trans ?_
    exact ⟨fun flushed => ⟨fun reaches => absurd reaches.ipv4 notIpv4,
      fun reaches => absurd reaches.ipv4 notIpv4, fun _ => flushed⟩,
      fun agrees => agrees.flushed reply⟩
  · rw [handled]
    exact iff_of_true (fun _ member => absurd member List.not_mem_nil) (unforwarded notReply)

/-- In every reachable state a frame that was sent to the router is answered,
forwarded and flushed with the addresses of the interfaces it leaves on exactly
in the cases of `SourcesAgree`. -/
theorem sourceConsistent_iff {host : Host} {start router : RouterState}
    {trace : List (Transition RouterState Frame Emission)} (initial : Initial start)
    (run : (machine host).Run start trace router) (frame : Frame)
    (addressed : Addressed host (router.receive frame).m) :
    (∀ emission ∈ (handle host (router.receive frame)).2, SourceConsistent host emission) ↔
      SourcesAgree host (router.receive frame) := by
  have aliased : Aliased router := run.invariant aliased_preserved (initial_aliased initial)
  by_cases ipv4 : get16 (router.receive frame).m.payload etherType = htons 0x0800
  · have handled : handle host (router.receive frame) = handleIpv4 host (router.receive frame) :=
      if_pos ipv4
    rw [handled]
    exact ipv4_consistent_iff addressed ipv4
  · exact @arp_consistent_iff host (router.receive frame) aliased addressed ipv4

/-- A packet from 10.0.0.5 that has to leave on the interface it came in on. -/
def hairpinFrame : Frame where
  interface := 1
  bytes :=
    [0x02, 0, 0, 0, 0, 1, 0x02, 0, 0, 0, 0, 0x99, 0x08, 0x00,
      0x45, 0, 0, 0x1c, 0, 0, 0, 0, 0x40, 0x11, 0xaf, 0x1d, 10, 0, 0, 5, 192, 168, 1, 7,
      0, 1, 0, 2, 0, 8, 0, 0]

theorem hairpin_addressed : Addressed sampleHost (sampleRouter.receive hairpinFrame).m where
  framed := by decide +kernel
  destination := .inl (by decide +kernel)

/-- A packet that leaves on the interface it came in on has the right source. -/
theorem sourceConsistent_iff_hairpin :
    (handle sampleHost (sampleRouter.receive hairpinFrame)).2 ≠ [] ∧
      ∀ emission ∈ (handle sampleHost (sampleRouter.receive hairpinFrame)).2,
        SourceConsistent sampleHost emission := by
  refine ⟨by decide +kernel, (sourceConsistent_iff sampleRouter_initial .refl hairpinFrame
    hairpin_addressed).mpr ⟨fun _ => by decide +kernel, fun _ _ => by decide +kernel,
      fun reply => absurd reply (by decide +kernel)⟩⟩

/-- A packet that is forwarded from interface 0 to interface 1 leaves with the
hardware address of interface 0. -/
theorem forwarded_with_foreign_source :
    Initial sampleRouter ∧ (machine sampleHost).Run sampleRouter [] sampleRouter ∧
      Addressed sampleHost (sampleRouter.receive sampleFrame).m ∧
      ¬ ∀ emission ∈ (handle sampleHost (sampleRouter.receive sampleFrame)).2,
        SourceConsistent sampleHost emission := by
  refine ⟨sampleRouter_initial, .refl, ⟨by decide +kernel, .inl (by decide +kernel)⟩, fun all => ?_⟩
  have sent : (handle sampleHost (sampleRouter.receive sampleFrame)).2.headD ⟨0, []⟩ ∈
      (handle sampleHost (sampleRouter.receive sampleFrame)).2 := by decide +kernel
  exact absurd (all _ sent).source (by decide +kernel)

end CommunicationProtocols.Router
