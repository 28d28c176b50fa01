import CommunicationProtocols.Router.Rebuilding

/-!
# Parked packets

A queued packet should wait for the ARP reply of its next hop and leave intact.
The queue holds the address of the receive buffer, so whatever arrives while a
packet waits is what the packet consists of afterwards. The law survives only
frames that the router turns into the waiting packet.
-/

namespace CommunicationProtocols.Router

open Library

/-- The packets in the queue, as its pointers reach them. -/
def parked (router : RouterState) : List Packet := router.q.map router.packets

/-- The best route of a packet. -/
def RouterState.routeOf (router : RouterState) (packet : Packet) : RouteTableEntry :=
  router.rtable (getBestRoute router.rtable router.rtableSize (get32 packet.payload ipDaddr))

/-- A packet waits for the ARP reply of an address. -/
def AwaitsReply (router : RouterState) (ip : Vector UInt8 4) (packet : Packet) : Prop :=
  bytes32 (router.routeOf packet).nextHop = ip

instance (router : RouterState) (ip : Vector UInt8 4) :
    DecidablePred (AwaitsReply router ip) := fun _ => inferInstanceAs (Decidable (_ = _))

/-- What the law compares in a delivery: the interface, the destination address
and the bytes behind the Ethernet addresses. -/
structure Delivery where
  interface : Int
  destination : List UInt8
  content : List UInt8
deriving DecidableEq

def Emission.delivery (emission : Emission) : Delivery :=
  ⟨emission.interface, emission.bytes.take 6, emission.bytes.drop 12⟩

/-- The delivery a parked packet is owed when its next hop replies. -/
def owed (router : RouterState) (mac : MacAddress) (packet : Packet) : Delivery :=
  ⟨(router.routeOf packet).interface, mac.toList, packet.bytes.drop 12⟩

/-- What one step may do to the parked packets: an ARP reply sends the packets
that wait for its sender, once each, and keeps the others; any other frame only
adds packets behind those that wait. -/
structure ParkedIntact (transition : Transition RouterState Frame Emission) : Prop where
  delivered : IsArpReply (transition.before.receive transition.event) →
    transition.outputs.map Emission.delivery =
      ((parked transition.before).filter fun packet => AwaitsReply transition.before
        (arpSender (transition.before.receive transition.event)).ip packet).map
        (owed transition.before (arpSender (transition.before.receive transition.event)).mac)
  kept : IsArpReply (transition.before.receive transition.event) →
    (parked transition.after).map Packet.bytes =
      ((parked transition.before).filter fun packet => ¬ AwaitsReply transition.before
        (arpSender (transition.before.receive transition.event)).ip packet).map Packet.bytes
  untouched : ¬ IsArpReply (transition.before.receive transition.event) →
    (parked transition.before).map Packet.bytes <+: (parked transition.after).map Packet.bytes

/-- An IPv4 frame that is turned into the packet the receive buffer held before
it came, as when a parked packet arrives once more. -/
structure RebuildsBuffer (host : Host) (router : RouterState) (frame : Frame) : Prop where
  ipv4 : get16 (router.receive frame).m.payload etherType = htons 0x0800
  turns : Turns host (router.receive frame) router.m

/-! ## The type of a packet is part of its bytes -/

/-- A packet has as many bytes as its length says. -/
theorem Packet.length_bytes (packet : Packet) : packet.bytes.length = packet.len :=
  ByteBuffer.length_contents _ _

/-- Packets with the same content have the same bytes behind the Ethernet addresses. -/
theorem Packet.payload_eq_of_content {packet packet' : Packet}
    (same : packet.bytes.drop 12 = packet'.bytes.drop 12) {i : Nat} (low : 12 ≤ i)
    (high : i < packet.len) (high' : i < packet'.len) : packet.payload i = packet'.payload i := by
  have at_i := congrArg (fun bytes => bytes[i - 12]?) same
  simpa [Packet.bytes, ByteBuffer.contents, List.getElem?_drop, Nat.add_sub_cancel' low,
    List.getElem?_range, high, high'] using at_i

/-- What lies behind the end of a frame was in the buffer before. -/
theorem RouterState.receive_behind (router : RouterState) (frame : Frame) (i : Nat)
    (behind : (router.receive frame).m.len ≤ i) :
    (router.receive frame).m.payload i = router.m.payload i := by
  rw [receive, store_m] at behind ⊢
  exact ByteBuffer.receive_apply_outside _ _ behind

/-- A frame that leaves its type and its length alone has the type of the packet
whose bytes it leaves in the buffer. -/
theorem etherType_of_left {router : RouterState} {frame : Frame} {left : Packet}
    (len : left.len = (router.receive frame).m.len)
    (typed : ∀ i, 12 ≤ i → i < 14 → left.payload i = (router.receive frame).m.payload i)
    (same : left.bytes.drop 12 = router.m.bytes.drop 12) :
    get16 (router.receive frame).m.payload etherType = get16 router.m.payload etherType := by
  refine get16_congr fun i low high => ?_
  have above : 12 ≤ i := low
  by_cases inside : i < left.len
  · have lengths := congrArg List.length same
    rw [List.length_drop, List.length_drop, Packet.length_bytes, Packet.length_bytes] at lengths
    rw [← typed i above high]
    exact Packet.payload_eq_of_content same above inside (by omega)
  · exact router.receive_behind frame i (by omega)

/-! ## The queue holds the receive buffer only -/

/-- An IPv4 packet is put into the queue or leaves it. -/
theorem handleIpv4_q (host : Host) (router : RouterState) :
    (handleIpv4 host router).1.q = router.q ∨
      (handleIpv4 host router).1.q = router.q ++ [.receiveBuffer] := by
  rcases ipv4Outcome host router with ⟨_, handled⟩ | ⟨_, _, handled⟩ | ⟨_, _, _, handled⟩ |
    ⟨_, _, _, _, handled⟩ | ⟨_, _, _, _, _, handled⟩ | ⟨_, _, _, _, _, _, _, _, handled⟩
  all_goals rw [handled]
  case found => exact .inr rfl
  all_goals exact .inl rfl

/-- Draining puts every packet it takes out into the other queue. -/
theorem drain_q (router : RouterState) (qAux ptrs : List PacketPtr) :
    (drain router qAux ptrs).2.1 = qAux ++ ptrs := by
  induction ptrs generalizing router qAux with
  | nil => simp [drain]
  | cons ptr rest ih => simp [drain, ih]

/-- Flushing leaves the queue as it was. -/
theorem flush_q (router : RouterState) : (flush router).1.q = router.q := by
  simp [flush, drain_q]

/-- Learning leaves the queue. -/
theorem learn_q (router : RouterState) : (learn router).q = router.q := by
  rw [learn_eq]
  split <;> rfl

/-- Learning leaves the packets. -/
theorem learn_packets (router : RouterState) : (learn router).packets = router.packets := by
  rw [learn_eq]
  split <;> rfl

/-- An ARP reply is handled by the learning step and the flush. -/
theorem handle_of_reply {host : Host} {router : RouterState} (reply : IsArpReply router) :
    handle host router = flush (learn router) := by
  rcases handleOutcome host router with ⟨_, notReply, _⟩ | ⟨_, notReply, _⟩ | ⟨_, _, handled⟩ |
    ⟨_, notReply, _⟩
  case replied => exact handled
  all_goals exact absurd reply notReply

/-- Only an IPv4 packet is added to the queue. -/
theorem handle_q_of_notIpv4 {host : Host} {router : RouterState}
    (notIpv4 : get16 router.m.payload etherType ≠ htons 0x0800) :
    (handle host router).1.q = router.q := by
  rcases handleOutcome host router with ⟨ipv4, _, _⟩ | ⟨_, _, handled⟩ | ⟨_, _, handled⟩ |
    ⟨_, _, handled⟩
  · exact absurd ipv4 notIpv4
  all_goals rw [handled]
  · rfl
  · exact (flush_q _).trans (learn_q router)

/-- A step leaves the queue alone or adds the receive buffer. -/
theorem handle_q (host : Host) (router : RouterState) :
    (handle host router).1.q = router.q ∨
      (handle host router).1.q = router.q ++ [.receiveBuffer] := by
  by_cases ipv4 : get16 router.m.payload etherType = htons 0x0800
  · rw [handle, if_pos ipv4]
    exact handleIpv4_q host router
  · exact .inl (handle_q_of_notIpv4 ipv4)

/-- Every pointer in the queue is the address of the receive buffer. -/
def Aliased (router : RouterState) : Prop := ∀ ptr ∈ router.q, ptr = .receiveBuffer

/-- Whatever is handled, the queue only points to the receive buffer. -/
theorem handle_aliased {host : Host} {router : RouterState} (aliased : Aliased router) :
    Aliased (handle host router).1 := by
  intro ptr member
  rcases handle_q host router with same | grown
  · exact aliased ptr (same ▸ member)
  · rw [grown] at member
    rcases List.mem_append.mp member with earlier | last
    · exact aliased ptr earlier
    · exact List.mem_singleton.mp last

/-! ## The flush sends what is in the receive buffer -/

/-- Packets that differ in the destination address of their Ethernet header at most. -/
structure SameBehindDhost (packet packet' : Packet) : Prop where
  len : packet.len = packet'.len
  interface : packet.interface = packet'.interface
  payload : ∀ i, 6 ≤ i → packet.payload i = packet'.payload i

namespace SameBehindDhost

variable {packet packet' packet'' : Packet}

/-- A packet is the same as itself. -/
theorem refl (packet : Packet) : SameBehindDhost packet packet := ⟨rfl, rfl, fun _ _ => rfl⟩

/-- Sameness behind the destination address is transitive. -/
theorem trans (same : SameBehindDhost packet packet') (same' : SameBehindDhost packet' packet'') :
    SameBehindDhost packet packet'' :=
  ⟨same.len.trans same'.len, same.interface.trans same'.interface,
    fun i behind => (same.payload i behind).trans (same'.payload i behind)⟩

/-- A new destination address changes nothing behind it. -/
theorem set_etherDhost (packet : Packet) (mac : MacAddress) :
    SameBehindDhost { packet with payload := etherDhost.set packet.payload mac } packet :=
  ⟨rfl, rfl, fun i behind => ByteBuffer.write_apply_outside _ _ _ (by
    simp only [etherDhost]
    omega)⟩

/-- Such packets have the same route. -/
theorem routeOf (same : SameBehindDhost packet packet') (router : RouterState) :
    router.routeOf packet = router.routeOf packet' := by
  have daddr : get32 packet.payload ipDaddr = get32 packet'.payload ipDaddr := by
    refine congrArg word32 (Vector.ext fun i bound => ?_)
    simp only [Field.get, ByteBuffer.getElem_read]
    exact same.payload _ (by simp only [ipDaddr]; omega)
  rw [RouterState.routeOf, RouterState.routeOf, daddr]

end SameBehindDhost

/-- A retransmission rewrites the destination address and nothing else. -/
theorem resend_same (arpTable : Cells ArpEntry) (nextHop : Vector UInt8 4) (n : Nat) (i : Int)
    (packet : Packet) :
    SameBehindDhost (resend arpTable nextHop n i packet).1 packet ∧
      ∀ emission ∈ (resend arpTable nextHop n i packet).2, ∃ sent,
        SameBehindDhost sent packet ∧ emission = sendPacket packet.interface sent := by
  induction n generalizing i packet with
  | zero => exact ⟨.refl packet, by simp [resend]⟩
  | succ n ih =>
      unfold resend
      split
      case isTrue =>
        have rewritten := SameBehindDhost.set_etherDhost packet (arpTable i).mac
        obtain ⟨stored, sent⟩ := ih (i + 1)
          { packet with payload := etherDhost.set packet.payload (arpTable i).mac }
        refine ⟨stored.trans rewritten, fun emission member => ?_⟩
        rcases List.mem_cons.mp member with rfl | later
        · exact ⟨_, rewritten, rfl⟩
        · obtain ⟨again, same, emitted⟩ := sent emission later
          exact ⟨again, same.trans rewritten, emitted⟩
      case isFalse => exact ih (i + 1) packet

/-- A packet is sent again exactly if the ARP table has its next hop. -/
theorem resend_eq_nil_iff (arpTable : Cells ArpEntry) (nextHop : Vector UInt8 4) (n : Nat)
    (i : Nat) (packet : Packet) :
    (resend arpTable nextHop n i packet).2 = [] ↔
      ∀ j : Nat, i ≤ j → j < i + n → (arpTable j).ip ≠ nextHop := by
  induction n generalizing i packet with
  | zero => exact ⟨fun _ j low high => by omega, fun _ => rfl⟩
  | succ n ih =>
      have rest := ih (i + 1) packet
      unfold resend
      split
      case isTrue here =>
        refine ⟨fun silent => absurd silent (List.cons_ne_nil _ _), fun absent => ?_⟩
        exact absurd here (absent i (Nat.le_refl i) (by omega))
      case isFalse other =>
        have next : ((i + 1 : Nat) : Int) = (i : Int) + 1 := by omega
        rw [← next, rest]
        constructor
        · intro absent j low high
          rcases Nat.eq_or_lt_of_le low with rfl | later
          · exact other
          · exact absent j later (by omega)
        · exact fun absent j low high => absent j (by omega) (by omega)

/-- Flushing a packet changes its destination address only. -/
theorem flushPacket_m (router : RouterState) :
    SameBehindDhost (flushPacket router .receiveBuffer).1.m router.m := by
  simp only [flushPacket, RouterState.store_m]
  exact (resend_same _ _ _ _ _).1

/-- With an aliased queue the drain sends the receive buffer and leaves it there. -/
theorem drain_same {router : RouterState} {qAux ptrs : List PacketPtr}
    (aliased : ∀ ptr ∈ ptrs, ptr = .receiveBuffer) :
    SameBehindDhost (drain router qAux ptrs).1.m router.m ∧
      ∀ emission ∈ (drain router qAux ptrs).2.2, ∃ sent,
        SameBehindDhost sent router.m ∧ emission = sendPacket router.m.interface sent := by
  induction ptrs generalizing router qAux with
  | nil => exact ⟨.refl _, by simp [drain]⟩
  | cons ptr rest ih =>
      obtain rfl := aliased ptr List.mem_cons_self
      have stored := flushPacket_m router
      obtain ⟨left, sent⟩ := @ih (flushPacket router .receiveBuffer).1
        (qAux ++ [.receiveBuffer]) fun ptr member => aliased ptr (List.mem_cons_of_mem _ member)
      refine ⟨left.trans stored, fun emission member => ?_⟩
      rcases List.mem_append.mp member with first | later
      · exact (resend_same _ _ _ _ _).2 emission first
      · obtain ⟨again, same, emitted⟩ := sent emission later
        exact ⟨again, same.trans stored, by rw [emitted, stored.interface]⟩

/-- With an aliased queue the drain sends something exactly if the queue is not
empty and the ARP table has the next hop of what is in the receive buffer. -/
theorem drain_eq_nil_iff {router : RouterState} {qAux ptrs : List PacketPtr}
    (aliased : ∀ ptr ∈ ptrs, ptr = .receiveBuffer) :
    (drain router qAux ptrs).2.2 = [] ↔ ptrs = [] ∨ ∀ j : Nat, j < router.arpTableLen →
      (router.arpTable j).ip ≠ bytes32 (router.routeOf router.m).nextHop := by
  induction ptrs generalizing router qAux with
  | nil => simp [drain]
  | cons ptr rest ih =>
      obtain rfl := aliased ptr List.mem_cons_self
      have first : (flushPacket router .receiveBuffer).2 = [] ↔ ∀ j : Nat, j < router.arpTableLen →
          (router.arpTable j).ip ≠ bytes32 (router.routeOf router.m).nextHop := by
        have sent := resend_eq_nil_iff router.arpTable
          (bytes32 (router.routeOf router.m).nextHop) router.arpTableLen 0 router.m
        simp only [Nat.zero_le, Nat.zero_add, true_implies] at sent
        exact sent
      have later := @ih (flushPacket router .receiveBuffer).1 (qAux ++ [.receiveBuffer])
        fun ptr member => aliased ptr (List.mem_cons_of_mem _ member)
      have route : (flushPacket router .receiveBuffer).1.routeOf
          (flushPacket router .receiveBuffer).1.m = router.routeOf router.m :=
        (flushPacket_m router).routeOf router
      rw [route] at later
      simp only [drain, List.append_eq_nil_iff, reduceCtorEq, false_or]
      rw [first, later]
      exact ⟨And.left, fun absent => ⟨absent, .inr absent⟩⟩

/-- What an ARP reply sends and leaves in the buffer is the reply itself. -/
theorem reply_same {host : Host} {router : RouterState} (aliased : Aliased router)
    (reply : IsArpReply router) :
    SameBehindDhost (handle host router).1.m router.m ∧
      ∀ emission ∈ (handle host router).2, ∃ sent,
        SameBehindDhost sent router.m ∧ emission = sendPacket router.m.interface sent := by
  have buffer : (learn router).m = router.m := congrFun (learn_packets router) _
  rw [handle_of_reply reply, ← buffer]
  refine @drain_same _ [] _ fun ptr member => aliased ptr ?_
  rwa [learn_q] at member

/-! ## The law step by step -/

/-- A waiting packet is an IPv4 packet as long as the law has held. -/
def ParkedIpv4 (router : RouterState) : Prop :=
  router.q ≠ [] → get16 router.m.payload etherType = htons 0x0800

/-- The transition of a router that receives a frame. -/
def frameTransition (host : Host) (router : RouterState) (frame : Frame) :
    Transition RouterState Frame Emission :=
  ⟨router, frame, (handle host (router.receive frame)).2, (handle host (router.receive frame)).1⟩

/-- With nothing waiting a reply sends nothing. -/
theorem handle_reply_of_empty {host : Host} {router : RouterState} (reply : IsArpReply router)
    (empty : router.q = []) : (handle host router).2 = [] ∧ (handle host router).1.q = [] := by
  rw [handle_of_reply reply]
  constructor
  · simp [flush, learn_q, empty, drain]
  · rw [flush_q, learn_q, empty]

/-- Nothing can go wrong while nothing is parked. -/
theorem parkedIntact_of_empty {host : Host} {router : RouterState} {frame : Frame}
    (empty : router.q = []) : ParkedIntact (frameTransition host router frame) where
  delivered reply := by
    have silent : (handle host (router.receive frame)).2 = [] :=
      (handle_reply_of_empty reply empty).1
    simp [frameTransition, silent, parked, empty]
  kept reply := by
    have stillEmpty : (handle host (router.receive frame)).1.q = [] :=
      (handle_reply_of_empty reply empty).2
    simp [frameTransition, parked, stillEmpty, empty]
  untouched _ := by simp [frameTransition, parked, empty]

/-- Every waiting packet has the bytes of the receive buffer. -/
theorem parked_bytes_of_aliased {router : RouterState} (aliased : Aliased router) :
    (parked router).map Packet.bytes = router.q.map fun _ => router.m.bytes := by
  simp only [parked, List.map_map]
  apply List.map_congr_left
  rintro ptr member
  rw [aliased ptr member]
  rfl

/-- A frame with the type of IPv4 is handled as such. -/
theorem handle_of_ipv4 {host : Host} {router : RouterState}
    (ipv4 : get16 router.m.payload etherType = htons 0x0800) :
    handle host router = handleIpv4 host router := by
  rw [handle, if_pos ipv4]

/-- A frame with the type of IPv4 is no ARP reply. -/
theorem notReply_of_ipv4 {router : RouterState}
    (ipv4 : get16 router.m.payload etherType = htons 0x0800) : ¬ IsArpReply router := fun reply =>
  htons_ipv4_ne_arp (ipv4.symm.trans reply.1)

/-- A frame that rebuilds the buffer does no harm. -/
theorem parkedIntact_of_rebuilds {host : Host} {router : RouterState} {frame : Frame}
    (aliased : Aliased router) (rebuilds : RebuildsBuffer host router frame) :
    ParkedIntact (frameTransition host router frame) where
  delivered reply := absurd reply (notReply_of_ipv4 rebuilds.ipv4)
  kept reply := absurd reply (notReply_of_ipv4 rebuilds.ipv4)
  untouched _ := by
    have after : Aliased (handle host (router.receive frame)).1 := handle_aliased aliased
    have left : (handle host (router.receive frame)).1.m.bytes = router.m.bytes := by
      rw [handle_of_ipv4 rebuilds.ipv4]
      exact (handleIpv4_turns_iff (router.receive_behind frame)).mpr rebuilds.turns
    simp only [frameTransition]
    rw [parked_bytes_of_aliased aliased, parked_bytes_of_aliased after, left]
    rcases handle_q host (router.receive frame) with same | grown
    · rw [same]
      exact List.prefix_refl _
    · rw [grown, RouterState.receive_q, List.map_append]
      exact List.prefix_append _ _

/-- What is waiting is in the receive buffer. -/
theorem mem_parked_of_aliased {router : RouterState} (aliased : Aliased router)
    (waiting : router.q ≠ []) : router.m ∈ parked router := by
  obtain ⟨ptr, member⟩ := List.exists_mem_of_ne_nil _ waiting
  exact List.mem_map.mpr ⟨ptr, member, by rw [aliased ptr member]; rfl⟩

/-- An ARP reply that meets a waiting packet breaks the law: the packet has been
overwritten by the reply. -/
theorem not_parkedIntact_of_reply {host : Host} {router : RouterState} {frame : Frame}
    (aliased : Aliased router) (header : ParkedIpv4 router) (waiting : router.q ≠ [])
    (reply : IsArpReply (router.receive frame)) :
    ¬ ParkedIntact (frameTransition host router frame) := by
  intro intact
  have overwritten (left : Packet) (same : SameBehindDhost left (router.receive frame).m) :
      left.bytes.drop 12 ≠ router.m.bytes.drop 12 := by
    intro kept
    have types := etherType_of_left same.len (fun i low _ => same.payload i (by omega)) kept
    rw [header waiting, reply.1] at types
    exact htons_ipv4_ne_arp types.symm
  obtain ⟨left, sent⟩ := @reply_same host (router.receive frame) aliased reply
  have after : Aliased (handle host (router.receive frame)).1 := handle_aliased aliased
  have member := mem_parked_of_aliased aliased waiting
  by_cases awaits : AwaitsReply router (arpSender (router.receive frame)).ip router.m
  · have owes : owed router (arpSender (router.receive frame)).mac router.m ∈
        (handle host (router.receive frame)).2.map Emission.delivery := by
      have deliveries := intact.delivered reply
      simp only [frameTransition] at deliveries
      rw [deliveries]
      exact List.mem_map_of_mem (List.mem_filter.mpr ⟨member, decide_eq_true awaits⟩)
    obtain ⟨emission, emitted, same⟩ := List.mem_map.mp owes
    obtain ⟨again, resent, rfl⟩ := sent emission emitted
    exact overwritten again resent (congrArg Delivery.content same)
  · have survives : router.m.bytes ∈
        (parked (handle host (router.receive frame)).1).map Packet.bytes := by
      have kept := intact.kept reply
      simp only [frameTransition] at kept
      rw [kept]
      exact List.mem_map_of_mem (List.mem_filter.mpr ⟨member, decide_eq_true awaits⟩)
    rw [parked_bytes_of_aliased after] at survives
    obtain ⟨_, _, same⟩ := List.mem_map.mp survives
    exact overwritten _ left (congrArg (List.drop 12) same)

/-- What the answer to an ARP request keeps of the request. -/
theorem arpReply_apply_type (host : Host) (packet : Packet) {i : Nat} (low : 12 ≤ i)
    (high : i < 14) : (arpReply host packet).payload i = packet.payload i := by
  have outside {n : Nat} {field : Field n} {bytes : Vector UInt8 n} (payload : ByteBuffer)
      (apart : field.offset + n ≤ 12 ∨ 14 ≤ field.offset) :
      field.set payload bytes i = payload i := set_apply_outside (by omega)
  simp only [arpReply, set16]
  rw [outside _ (by decide), outside _ (by decide), outside _ (by decide), outside _ (by decide),
    outside _ (by decide), outside _ (by decide), outside _ (by decide)]

/-- Only an IPv4 frame leaves the bytes of an IPv4 packet in the buffer. -/
theorem ipv4_of_left {host : Host} {router : RouterState} {frame : Frame}
    (ipv4 : get16 router.m.payload etherType = htons 0x0800)
    (notReply : ¬ IsArpReply (router.receive frame))
    (left : (handle host (router.receive frame)).1.m.bytes = router.m.bytes) :
    get16 (router.receive frame).m.payload etherType = htons 0x0800 := by
  have content := congrArg (List.drop 12) left
  rcases handleOutcome host (router.receive frame) with ⟨holds, _, _⟩ | ⟨_, _, handled⟩ |
    ⟨_, reply, _⟩ | ⟨_, _, handled⟩
  · exact holds
  · rw [handled, sendBuffer, RouterState.store_m] at content
    rw [← ipv4]
    have len : (arpReply host (router.receive frame).m).len = (router.receive frame).m.len := rfl
    exact etherType_of_left len (fun _ low high => arpReply_apply_type host _ low high) content
  · exact absurd reply notReply
  · rw [handled] at content
    rw [← ipv4]
    exact etherType_of_left rfl (fun _ _ _ => rfl) content

/-- Where the law holds, a frame that meets a waiting packet rebuilds the buffer. -/
theorem rebuilds_of_parkedIntact {host : Host} {router : RouterState} {frame : Frame}
    (aliased : Aliased router) (header : ParkedIpv4 router) (waiting : router.q ≠ [])
    (intact : ParkedIntact (frameTransition host router frame)) :
    RebuildsBuffer host router frame := by
  have notReply : ¬ IsArpReply (router.receive frame) := fun reply =>
    not_parkedIntact_of_reply aliased header waiting reply intact
  have unmodified := intact.untouched notReply
  simp only [frameTransition] at unmodified
  have after : Aliased (handle host (router.receive frame)).1 := handle_aliased aliased
  rw [parked_bytes_of_aliased aliased, parked_bytes_of_aliased after] at unmodified
  obtain ⟨ptr, member⟩ := List.exists_mem_of_ne_nil _ waiting
  have here : router.m.bytes ∈ router.q.map fun _ => router.m.bytes :=
    List.mem_map.mpr ⟨ptr, member, rfl⟩
  obtain ⟨_, _, left⟩ := List.mem_map.mp (unmodified.subset here)
  have ipv4 := ipv4_of_left (header waiting) notReply left
  refine ⟨ipv4, (handleIpv4_turns_iff (router.receive_behind frame)).mp ?_⟩
  rw [← handle_of_ipv4 ipv4]
  exact left

/-- Under the law a waiting packet stays an IPv4 packet. -/
theorem parkedIpv4_of_parkedIntact {host : Host} {router : RouterState} {frame : Frame}
    (aliased : Aliased router) (header : ParkedIpv4 router)
    (intact : ParkedIntact (frameTransition host router frame)) :
    ParkedIpv4 (handle host (router.receive frame)).1 := by
  intro waits
  have ipv4 : get16 (router.receive frame).m.payload etherType = htons 0x0800 := by
    by_contra notIpv4
    rw [handle_q_of_notIpv4 notIpv4] at waits
    exact notIpv4 (rebuilds_of_parkedIntact aliased header waits intact).ipv4
  rw [handle_of_ipv4 ipv4, handleIpv4_etherType]
  exact ipv4

/-! ## The law over runs -/

/-- In every transition the queue only points to the receive buffer. -/
theorem aliased_preserved {host : Host} (transition : Transition RouterState Frame Emission)
    (genuine : (machine host).Genuine transition) (aliased : Aliased transition.before) :
    Aliased transition.after := by
  have after : (handle host (transition.before.receive transition.event)).1 = transition.after :=
    congrArg Prod.fst (Option.some.inj genuine.stepped)
  exact after ▸ handle_aliased aliased

/-- A transition of the machine is that of its frame. -/
theorem eq_frameTransition {host : Host} {router next : RouterState} {frame : Frame}
    {outputs : List Emission} (stepped : (machine host).step router frame = some (next, outputs)) :
    (⟨router, frame, outputs, next⟩ : Transition RouterState Frame Emission) =
      frameTransition host router frame := by
  have taken := Option.some.inj stepped
  rw [frameTransition, taken]

/-- At the start the queue is empty. -/
theorem initial_aliased {router : RouterState} (initial : Initial router) : Aliased router := by
  intro ptr member
  rw [initial.queueEmpty] at member
  cases member

/-- The frames of a run that meet a waiting packet rebuild the buffer. -/
def RebuildsWhileParked (host : Host) (trace : List (Transition RouterState Frame Emission)) :
    Prop :=
  ∀ transition ∈ trace, transition.before.q ≠ [] →
    RebuildsBuffer host transition.before transition.event

/-- Where every frame that meets a waiting packet rebuilds the buffer, the law holds. -/
theorem parkedIntact_of_rebuildsWhileParked {host : Host} {start final : RouterState}
    {trace : List (Transition RouterState Frame Emission)} (initial : Initial start)
    (run : (machine host).Run start trace final) (rebuilds : RebuildsWhileParked host trace) :
    ∀ transition ∈ trace, ParkedIntact transition := by
  intro transition member
  obtain ⟨genuine, aliased⟩ :=
    run.transitions aliased_preserved (initial_aliased initial) transition member
  have shape : transition = frameTransition host transition.before transition.event :=
    eq_frameTransition genuine.stepped
  have intact : ParkedIntact (frameTransition host transition.before transition.event) := by
    by_cases waiting : transition.before.q = []
    · exact parkedIntact_of_empty waiting
    · exact parkedIntact_of_rebuilds aliased (rebuilds transition member waiting)
  rwa [shape]

/-- Where the law holds, every frame that meets a waiting packet rebuilds the buffer. -/
theorem rebuildsWhileParked_of_parkedIntact {host : Host} {start final : RouterState}
    {trace : List (Transition RouterState Frame Emission)} (initial : Initial start)
    (run : (machine host).Run start trace final)
    (intact : ∀ transition ∈ trace, ParkedIntact transition) :
    RebuildsWhileParked host trace ∧ ParkedIpv4 final := by
  induction run with
  | refl =>
      refine ⟨by simp [RebuildsWhileParked], fun waits => ?_⟩
      exact absurd initial.queueEmpty waits
  | @step trace router frame outputs next prior admitted stepped ih =>
      have earlier : ∀ transition ∈ trace,
          transition ∈ trace ++ [(⟨router, frame, outputs, next⟩ : Transition _ _ _)] :=
        fun transition member => List.mem_append_left _ member
      obtain ⟨rebuilds, header⟩ := ih fun transition member => intact _ (earlier _ member)
      have aliased := prior.invariant aliased_preserved (initial_aliased initial)
      have lastIntact := intact _ (List.mem_append_right trace List.mem_cons_self)
      rw [eq_frameTransition stepped] at lastIntact
      obtain rfl : (handle host (router.receive frame)).1 = next :=
        congrArg Prod.fst (Option.some.inj stepped)
      refine ⟨?_, parkedIpv4_of_parkedIntact aliased header lastIntact⟩
      intro transition member waiting
      rcases List.mem_append.mp member with before | last
      · exact rebuilds transition before waiting
      · obtain rfl := List.mem_singleton.mp last
        exact rebuilds_of_parkedIntact aliased header waiting lastIntact

/-- In every run the parked packets are delivered once and intact exactly if
every frame received while one waits rebuilds the receive buffer. -/
theorem parkedIntact_iff {host : Host} {start final : RouterState}
    {trace : List (Transition RouterState Frame Emission)} (initial : Initial start)
    (run : (machine host).Run start trace final) :
    (∀ transition ∈ trace, ParkedIntact transition) ↔ RebuildsWhileParked host trace :=
  ⟨fun intact => (rebuildsWhileParked_of_parkedIntact initial run intact).1,
    parkedIntact_of_rebuildsWhileParked initial run⟩

/-! ## A packet parked and overwritten -/

/-- The next hop replies, and a packet is parked although the next hop is known. -/
def sampleParked : RouterState := framesFinal sampleHost sampleRouter [sampleReply 2, sampleFrame]

/-- The sample packet in the buffer, forwarded, is what the sample frame turns into. -/
theorem sampleParked_rebuilds : RebuildsBuffer sampleHost sampleParked sampleFrame where
  ipv4 := by decide +kernel
  turns := by
    rw [Turns, if_neg (by decide +kernel), if_neg (by decide +kernel), if_neg (by decide +kernel),
      if_pos (by decide +kernel), if_neg (by decide +kernel)]
    exact ⟨by decide +kernel, by decide +kernel, by decide +kernel, by decide +kernel⟩

/-- A parked packet that arrives once more is parked twice, and both entries keep its bytes. -/
theorem parkedIntact_iff_sample :
    sampleParked.q ≠ [] ∧
      ∀ transition ∈ framesTrace sampleHost sampleRouter [sampleReply 2, sampleFrame, sampleFrame],
        ParkedIntact transition := by
  have run := @frames_run sampleHost [sampleReply 2, sampleFrame, sampleFrame] sampleRouter
    (by decide)
  refine ⟨by decide +kernel, (parkedIntact_iff sampleRouter_initial run).mpr ?_⟩
  intro transition member waiting
  simp only [framesTrace, List.mem_cons, List.not_mem_nil, or_false] at member
  rcases member with rfl | rfl | rfl
  · exact absurd rfl waiting
  · exact absurd (by decide +kernel) waiting
  · exact sampleParked_rebuilds

/-- The next reply does not deliver the parked packet. What the flush takes for
the packet is the reply, which has no route: nothing is sent at all, and the
pointer stays in the queue. -/
theorem parked_packet_overwritten :
    Initial sampleRouter ∧
      (machine sampleHost).Run sampleRouter
        (framesTrace sampleHost sampleRouter [sampleReply 2, sampleFrame, sampleReply 2])
        (framesFinal sampleHost sampleRouter [sampleReply 2, sampleFrame, sampleReply 2]) ∧
      (frameTransition sampleHost sampleParked (sampleReply 2)).outputs = [] ∧
      (frameTransition sampleHost sampleParked (sampleReply 2)).after.q = [.receiveBuffer] ∧
      ¬ ∀ transition ∈
          framesTrace sampleHost sampleRouter [sampleReply 2, sampleFrame, sampleReply 2],
        ParkedIntact transition := by
  refine ⟨sampleRouter_initial, frames_run sampleRouter (by decide), by decide +kernel,
    by decide +kernel, fun intact => ?_⟩
  have last : frameTransition sampleHost sampleParked (sampleReply 2) ∈
      framesTrace sampleHost sampleRouter [sampleReply 2, sampleFrame, sampleReply 2] :=
    List.mem_cons_of_mem _ (List.mem_cons_of_mem _ List.mem_cons_self)
  have delivered := (intact _ last).delivered (by decide +kernel)
  exact absurd delivered (by decide +kernel)

end CommunicationProtocols.Router
