import CommunicationProtocols.Router.Parking
import CommunicationProtocols.Router.RouteLookup

/-!
# What the handlers read of the routing table

Each handler has a list of the indices at which it reads the routing table. A
lookup reads before entry 0 where its walk back reaches that entry, and the
flush of the queue reads the entry of a route without testing that there is one.
-/

namespace CommunicationProtocols.Router

open Library

/-! ## The reads of the handlers -/

/-- The reads of the forwarding step: the lookup, the next hop for every ARP
entry that the search visits, and the route that is used at the end. -/
def forwardReads (router : RouterState) : List Int :=
  let packet := router.m
  let payload := set8 packet.payload ipTtl (get8 packet.payload ipTtl - 1)
  let payload := setIpCheck payload
  let index := getBestRoute router.rtable router.rtableSize (get32 payload ipDaddr)
  let nextHop := bytes32 (router.rtable index).nextHop
  getBestRouteReads router.rtable router.rtableSize (get32 payload ipDaddr) ++
    ((findArpReads router.arpTable nextHop router.arpTableLen 0).map fun _ => index) ++ [index]

/-- The reads of the IPv4 branch. -/
def handleIpv4Reads (host : Host) (router : RouterState) : List Int :=
  let packet := router.m
  let payload := packet.payload
  if get8 payload ipProtocol = 1 ∧ get8 payload icmpType = 8 ∧
      get32 payload ipDaddr = host.interfaceIp packet.interface then
    []
  else
    getBestRouteReads router.rtable router.rtableSize (get32 payload ipDaddr) ++
      if getBestRoute router.rtable router.rtableSize (get32 payload ipDaddr) = -1 then
        []
      else if get8 payload ipTtl ≤ 1 then
        []
      else
        let check := get16 payload ipCheck
        let payload := setIpCheck payload
        let router := router.store .receiveBuffer { packet with payload := payload }
        if get16 payload ipCheck = check then forwardReads router else []

/-- The reads of one round of the drain loop: the lookup, and the next hop for
every ARP entry. -/
def flushPacketReads (router : RouterState) (ptr : PacketPtr) : List Int :=
  let packet := router.packets ptr
  let index := getBestRoute router.rtable router.rtableSize (get32 packet.payload ipDaddr)
  getBestRouteReads router.rtable router.rtableSize (get32 packet.payload ipDaddr) ++
    List.replicate router.arpTableLen index

/-- The reads of the drain loop. -/
def drainReads (router : RouterState) : List PacketPtr → List Int
  | [] => []
  | ptr :: rest => flushPacketReads router ptr ++ drainReads (flushPacket router ptr).1 rest

/-- The reads of the ARP branch. -/
def handleArpReads (router : RouterState) : List Int :=
  let payload := router.m.payload
  if get16 payload arpOp = htons 1 then []
  else if get16 payload arpOp = htons 2 then drainReads (learn router) (learn router).q
  else []

/-- The indices at which one iteration of the loop reads the routing table. -/
def handleReads (host : Host) (router : RouterState) : List Int :=
  if get16 router.m.payload etherType = htons 0x0800 then handleIpv4Reads host router
  else if get16 router.m.payload etherType = htons 0x0806 then handleArpReads router
  else []

/-! ## The handlers depend on what they read -/

section

variable {router : RouterState} {rtable' : Rtable}

/-- The router with another routing table in memory. -/
def RouterState.withRtable (router : RouterState) (rtable : Rtable) : RouterState :=
  { router with rtable := rtable }

@[simp] theorem RouterState.withRtable_m : (router.withRtable rtable').m = router.m := rfl

@[simp] theorem RouterState.withRtable_packets :
    (router.withRtable rtable').packets = router.packets := rfl

@[simp] theorem RouterState.withRtable_rtable : (router.withRtable rtable').rtable = rtable' := rfl

@[simp] theorem RouterState.withRtable_rtableSize :
    (router.withRtable rtable').rtableSize = router.rtableSize := rfl

@[simp] theorem RouterState.withRtable_arpTable :
    (router.withRtable rtable').arpTable = router.arpTable := rfl

@[simp] theorem RouterState.withRtable_arpTableLen :
    (router.withRtable rtable').arpTableLen = router.arpTableLen := rfl

@[simp] theorem RouterState.withRtable_q : (router.withRtable rtable').q = router.q := rfl

/-- Storing a packet goes past another table. -/
theorem RouterState.store_withRtable (ptr : PacketPtr) (packet : Packet) :
    (router.withRtable rtable').store ptr packet = (router.store ptr packet).withRtable rtable' :=
  rfl

/-- Forwarding depends on the entries it reads. -/
theorem forward_withRtable (host : Host)
    (same : ∀ k ∈ forwardReads router, rtable' k = router.rtable k) :
    forward host (router.withRtable rtable') =
      ((forward host router).1.withRtable rtable', (forward host router).2) := by
  have searched := getBestRoute_eq_of_reads fun k member =>
    same k (List.mem_append_left _ (List.mem_append_left _ member))
  have used := same _ (List.mem_append_right _ List.mem_cons_self)
  simp only [forward, RouterState.withRtable_m, RouterState.withRtable_rtable,
    RouterState.withRtable_rtableSize, RouterState.withRtable_arpTable,
    RouterState.withRtable_arpTableLen, searched, used]
  split
  case isTrue => rfl
  case isFalse => rfl

/-- The reads of a packet that is no echo request for the router. -/
theorem handleIpv4Reads_eq {host : Host} (notEcho : ¬ IsEchoRequest host router) :
    handleIpv4Reads host router =
      getBestRouteReads router.rtable router.rtableSize (get32 router.m.payload ipDaddr) ++
        if Unroutable router then []
        else if Expired router then []
        else if CheckMatches router then
          forwardReads (router.store .receiveBuffer
            { router.m with payload := setIpCheck router.m.payload })
        else [] := if_neg notEcho

/-- The ways an IPv4 packet takes. -/
theorem handleIpv4_ways (host : Host) (router : RouterState) :
    handleIpv4 host router =
      if IsEchoRequest host router then
        sendBuffer router router.m.interface (echoReplyPacket router)
      else if Unroutable router then
        sendBuffer router router.m.interface (unreachablePacket router)
      else if Expired router then
        sendBuffer router router.m.interface (expiredPacket router)
      else if CheckMatches router then
        forward host (router.store .receiveBuffer
          { router.m with payload := setIpCheck router.m.payload })
      else
        (router.store .receiveBuffer
          { router.m with payload := setIpCheck router.m.payload }, []) := rfl

/-- An IPv4 packet is handled by the entries it reads. -/
theorem handleIpv4_withRtable (host : Host)
    (same : ∀ k ∈ handleIpv4Reads host router, rtable' k = router.rtable k) :
    handleIpv4 host (router.withRtable rtable') =
      ((handleIpv4 host router).1.withRtable rtable', (handleIpv4 host router).2) := by
  have echoes : IsEchoRequest host (router.withRtable rtable') ↔ IsEchoRequest host router :=
    Iff.rfl
  have expires : Expired (router.withRtable rtable') ↔ Expired router := Iff.rfl
  have checks : CheckMatches (router.withRtable rtable') ↔ CheckMatches router := Iff.rfl
  rw [handleIpv4_ways, handleIpv4_ways host router]
  by_cases echo : IsEchoRequest host router
  · rw [if_pos echo, if_pos (echoes.mpr echo)]
    rfl
  rw [handleIpv4Reads_eq echo] at same
  have searched := getBestRoute_eq_of_reads fun k member => same k (List.mem_append_left _ member)
  have routes : Unroutable (router.withRtable rtable') ↔ Unroutable router := by
    rw [Unroutable, Unroutable]
    exact searched ▸ Iff.rfl
  rw [if_neg echo, if_neg (mt echoes.mp echo)]
  by_cases unroutable : Unroutable router
  · rw [if_pos unroutable, if_pos (routes.mpr unroutable)]
    rfl
  rw [if_neg unroutable, if_neg (mt routes.mp unroutable)]
  by_cases expired : Expired router
  · rw [if_pos expired, if_pos (expires.mpr expired)]
    rfl
  rw [if_neg expired, if_neg (mt expires.mp expired)]
  rw [if_neg unroutable, if_neg expired] at same
  by_cases checked : CheckMatches router
  · rw [if_pos checked] at same
    rw [if_pos checked, if_pos (checks.mpr checked), RouterState.withRtable_m,
      RouterState.store_withRtable]
    exact forward_withRtable host fun k member => same k (List.mem_append_right _ member)
  · rw [if_neg checked, if_neg (mt checks.mp checked), RouterState.withRtable_m,
      RouterState.store_withRtable]

/-- A waiting packet is sent by the entries it reads. -/
theorem flushPacket_withRtable {ptr : PacketPtr}
    (same : ∀ k ∈ flushPacketReads router ptr, rtable' k = router.rtable k) :
    flushPacket (router.withRtable rtable') ptr =
      ((flushPacket router ptr).1.withRtable rtable', (flushPacket router ptr).2) := by
  have searched := getBestRoute_eq_of_reads fun k member => same k (List.mem_append_left _ member)
  simp only [flushPacket, RouterState.withRtable_packets, RouterState.withRtable_rtable,
    RouterState.withRtable_rtableSize, RouterState.withRtable_arpTable,
    RouterState.withRtable_arpTableLen, searched]
  rcases Nat.eq_zero_or_pos router.arpTableLen with none | some
  · simp only [none, resend]
    rfl
  · rw [same _ (List.mem_append_right _ (List.mem_replicate.mpr ⟨some.ne', rfl⟩))]
    rfl

/-- Waiting packets are sent by the entries they read. -/
theorem drain_withRtable {qAux ptrs : List PacketPtr}
    (same : ∀ k ∈ drainReads router ptrs, rtable' k = router.rtable k) :
    drain (router.withRtable rtable') qAux ptrs =
      ((drain router qAux ptrs).1.withRtable rtable', (drain router qAux ptrs).2) := by
  induction ptrs generalizing router qAux with
  | nil => rfl
  | cons ptr rest ih =>
      have first := @flushPacket_withRtable _ rtable' ptr fun k member =>
        same k (List.mem_append_left _ member)
      have later := @ih (flushPacket router ptr).1 (qAux ++ [ptr]) fun k member =>
        same k (List.mem_append_right _ member)
      simp only [drain, first, later]

/-- Learning leaves the routing table. -/
theorem learn_rtable (router : RouterState) :
    (learn router).rtable = router.rtable ∧ (learn router).rtableSize = router.rtableSize := by
  rw [learn_eq]
  split <;> exact ⟨rfl, rfl⟩

/-- Learning reads no route. -/
theorem learn_withRtable (router : RouterState) (rtable' : Rtable) :
    learn (router.withRtable rtable') = (learn router).withRtable rtable' := by
  have sender : arpSender (router.withRtable rtable') = arpSender router := rfl
  rw [learn_eq, learn_eq router, sender, RouterState.withRtable_arpTable,
    RouterState.withRtable_arpTableLen]
  by_cases missed : differs router.arpTable (arpSender router).ip router.arpTableLen 0 = false
  · rw [if_pos missed, if_pos missed]
    rfl
  · rw [if_neg missed, if_neg missed]

/-- An ARP packet is handled by the entries it reads. -/
theorem handleArp_withRtable (host : Host)
    (same : ∀ k ∈ handleArpReads router, rtable' k = router.rtable k) :
    handleArp host (router.withRtable rtable') =
      ((handleArp host router).1.withRtable rtable', (handleArp host router).2) := by
  by_cases request : get16 router.m.payload arpOp = htons 1
  · by_cases own : get32 router.m.payload arpTpa = host.interfaceIp router.m.interface
    · have answered : handleArp host router =
          sendBuffer router router.m.interface (arpReply host router.m) :=
        (if_pos request).trans (if_pos own)
      rw [answered]
      exact (if_pos request).trans (if_pos own)
    · have ignored : handleArp host router = (router, []) := (if_pos request).trans (if_neg own)
      rw [ignored]
      exact (if_pos request).trans (if_neg own)
  by_cases reply : get16 router.m.payload arpOp = htons 2
  · have reads : handleArpReads router = drainReads (learn router) (learn router).q :=
      (if_neg request).trans (if_pos reply)
    have flushed : handleArp host router = flush (learn router) :=
      (if_neg request).trans (if_pos reply)
    rw [reads] at same
    have drained := @drain_withRtable (learn router) rtable' [] (learn router).q fun k member =>
      (same k member).trans (congrFun (learn_rtable router).1 k).symm
    have later : handleArp host (router.withRtable rtable') =
        flush (learn (router.withRtable rtable')) := (if_neg request).trans (if_pos reply)
    rw [later, flushed, learn_withRtable]
    simp only [flush, RouterState.withRtable_q, drained]
    rfl
  · have ignored : handleArp host router = (router, []) :=
      (if_neg request).trans (if_neg reply)
    rw [ignored]
    exact (if_neg request).trans (if_neg reply)

/-- One iteration of the loop depends on the entries it reads only. -/
theorem handle_reads (host : Host)
    (same : ∀ k ∈ handleReads host router, rtable' k = router.rtable k) :
    handle host (router.withRtable rtable') =
      ((handle host router).1.withRtable rtable', (handle host router).2) := by
  by_cases ipv4 : get16 router.m.payload etherType = htons 0x0800
  · have reads : handleReads host router = handleIpv4Reads host router := if_pos ipv4
    have handled : handle host router = handleIpv4 host router := if_pos ipv4
    rw [reads] at same
    rw [handled, ← handleIpv4_withRtable host same]
    exact if_pos ipv4
  by_cases arp : get16 router.m.payload etherType = htons 0x0806
  · have reads : handleReads host router = handleArpReads router :=
      (if_neg ipv4).trans (if_pos arp)
    have handled : handle host router = handleArp host router :=
      (if_neg ipv4).trans (if_pos arp)
    rw [reads] at same
    rw [handled, ← handleArp_withRtable host same]
    exact (if_neg ipv4).trans (if_pos arp)
  · have ignored : handle host router = (router, []) := (if_neg ipv4).trans (if_neg arp)
    rw [ignored]
    exact (if_neg ipv4).trans (if_neg arp)

end

/-! ## The IPv4 branch -/

/-- All these indices are entries of the table. -/
def Inside (rtableSize : Nat) (reads : List Int) : Prop :=
  ∀ k ∈ reads, 0 ≤ k ∧ k < (rtableSize : Int)

@[simp] theorem inside_nil (rtableSize : Nat) : Inside rtableSize [] := fun _ member => by
  cases member

@[simp] theorem inside_append {rtableSize : Nat} {reads reads' : List Int} :
    Inside rtableSize (reads ++ reads') ↔ Inside rtableSize reads ∧ Inside rtableSize reads' :=
  List.forall_mem_append

/-- The destination of the packet behind a pointer. -/
def RouterState.destination (router : RouterState) (ptr : PacketPtr) : BitVec 32 :=
  get32 (router.packets ptr).payload ipDaddr

section

variable {host : Host} {router : RouterState}

/-- The second lookup and the route it returns are those of the first one. -/
theorem forwardReads_inside (routed : ¬ Unroutable router)
    (stays : WalkStaysInside router.rtable router.rtableSize (router.destination .receiveBuffer)) :
    Inside router.rtableSize (forwardReads (router.store .receiveBuffer
      { router.m with payload := setIpCheck router.m.payload })) := by
  have daddr := ipDaddr_forwardedPayload router.m.payload
  simp only [forwardedPayload] at daddr
  have sound := soundRoute_of_routed routed
  have route : 0 ≤ getBestRoute router.rtable router.rtableSize (get32 router.m.payload ipDaddr) ∧
      getBestRoute router.rtable router.rtableSize (get32 router.m.payload ipDaddr) <
        (router.rtableSize : Int) := ⟨sound.lower, sound.upper⟩
  simp only [forwardReads, RouterState.store_m, RouterState.store_rtable,
    RouterState.store_rtableSize, RouterState.store_arpTable, RouterState.store_arpTableLen, daddr]
  refine inside_append.mpr ⟨inside_append.mpr ⟨getBestRouteReads_inside_iff.mpr stays, ?_⟩, ?_⟩
  · intro k read
    obtain ⟨_, _, rfl⟩ := List.mem_map.mp read
    exact route
  · intro k read
    obtain rfl := List.mem_singleton.mp read
    exact route

/-- An IPv4 packet is looked up inside the table exactly if its walk stays there. -/
theorem handleIpv4Reads_inside_iff :
    Inside router.rtableSize (handleIpv4Reads host router) ↔
      (¬ IsEchoRequest host router →
        WalkStaysInside router.rtable router.rtableSize (router.destination .receiveBuffer)) := by
  by_cases echo : IsEchoRequest host router
  · have silent : handleIpv4Reads host router = [] := if_pos echo
    rw [silent]
    exact iff_of_true (inside_nil _) (fun other => absurd echo other)
  · rw [handleIpv4Reads_eq echo, inside_append]
    constructor
    · rintro ⟨lookup, _⟩ _
      exact getBestRouteReads_inside_iff.mp lookup
    · intro stays
      refine ⟨getBestRouteReads_inside_iff.mpr (stays echo), ?_⟩
      by_cases routed : Unroutable router
      · rw [if_pos routed]
        exact inside_nil _
      · rw [if_neg routed]
        split
        case isTrue => exact inside_nil _
        case isFalse =>
          split
          case isTrue => exact forwardReads_inside routed (stays echo)
          case isFalse => exact inside_nil _

/-! ## The flush of the queue -/

/-- The lookup of a queued packet stays inside the table and ends at an entry. -/
def FlushStaysInside (rtable : Rtable) (rtableSize : Nat) (destIp : BitVec 32) : Prop :=
  WalkStaysInside rtable rtableSize destIp ∧
    ∃ entry, SteeredTo rtable rtableSize destIp entry

/-- A waiting packet is looked up inside the table exactly if its walk stays there and ends at
an entry. -/
theorem flushPacketReads_inside_iff {ptr : PacketPtr} (known : 0 < router.arpTableLen) :
    Inside router.rtableSize (flushPacketReads router ptr) ↔
      FlushStaysInside router.rtable router.rtableSize (router.destination ptr) := by
  rw [flushPacketReads, inside_append]
  refine and_congr getBestRouteReads_inside_iff ?_
  rw [← routed_iff_steered]
  constructor
  · intro inside unrouted
    have bounds := inside (-1) (by
      rw [List.mem_replicate]
      exact ⟨by omega, unrouted.symm⟩)
    omega
  · intro routed k read
    have sound := soundRoute_of_routed routed
    obtain rfl := List.eq_of_mem_replicate read
    exact ⟨sound.lower, sound.upper⟩

/-- A round of the drain leaves the destination of every packet as it is. -/
theorem destination_flushPacket (router : RouterState) (ptr ptr' : PacketPtr) :
    (flushPacket router ptr).1.destination ptr' = router.destination ptr' := by
  by_cases same : ptr' = ptr
  · subst same
    simp only [RouterState.destination, flushPacket, RouterState.store_packets_same]
    apply get32_congr
    intro i low _
    exact (resend_same _ _ _ _ _).1.payload i (by simp only [ipDaddr] at low; omega)
  · simp [RouterState.destination, flushPacket, RouterState.store, same]

/-- Waiting packets are looked up inside the table exactly if each of them is. -/
theorem drainReads_inside_iff {ptrs : List PacketPtr} (known : 0 < router.arpTableLen) :
    Inside router.rtableSize (drainReads router ptrs) ↔
      ∀ ptr ∈ ptrs,
        FlushStaysInside router.rtable router.rtableSize (router.destination ptr) := by
  induction ptrs generalizing router with
  | nil => simp [drainReads]
  | cons ptr rest ih =>
      have later := @ih (flushPacket router ptr).1 known
      simp only [destination_flushPacket] at later
      rw [drainReads, inside_append, flushPacketReads_inside_iff known, List.forall_mem_cons]
      exact and_congr_right fun _ => later

/-- After the learning step the ARP table has an entry. -/
theorem learn_arpTableLen_pos (router : RouterState) : 0 < (learn router).arpTableLen := by
  rw [learn_eq]
  split
  case isTrue => exact Nat.succ_pos _
  case isFalse found =>
    have found := Bool.of_not_eq_false found
    obtain ⟨k, bound, _⟩ := (differs_iff _ _ _ _).mp found
    omega

/-- A reply reads what the waiting packets need. -/
theorem handleReads_of_reply (reply : IsArpReply router) :
    handleReads host router = drainReads (learn router) router.q := by
  have notIpv4 : get16 router.m.payload etherType ≠ htons 0x0800 := fun ipv4 =>
    htons_ipv4_ne_arp (ipv4.symm.trans reply.1)
  have notRequest : get16 router.m.payload arpOp ≠ htons 1 := fun request =>
    htons_request_ne_reply (request.symm.trans reply.2)
  rw [handleReads, if_neg notIpv4, if_pos reply.1]
  simp only [handleArpReads]
  rw [if_neg notRequest, if_pos reply.2, learn_q]

/-- A reply is handled inside the table exactly if each waiting packet is. -/
theorem reply_reads_inside_iff (reply : IsArpReply router) :
    Inside router.rtableSize (handleReads host router) ↔
      ∀ ptr ∈ router.q,
        FlushStaysInside router.rtable router.rtableSize (router.destination ptr) := by
  have drained := @drainReads_inside_iff _ router.q (learn_arpTableLen_pos router)
  have destinations : (learn router).destination = router.destination := by
    funext ptr
    rw [RouterState.destination, learn_packets]
    rfl
  rw [(learn_rtable router).1, (learn_rtable router).2, destinations] at drained
  rw [handleReads_of_reply reply]
  exact drained

end

/-! ## The law -/

/-- The lookups of one iteration are kept inside the table: the destination of
an IPv4 packet that is no echo request for the router has a walk back that stops
behind entry 0, and when an ARP reply arrives each queued packet has that and a
route. -/
structure LookupsStayInside (host : Host) (router : RouterState) : Prop where
  forwarded : get16 router.m.payload etherType = htons 0x0800 → ¬ IsEchoRequest host router →
    WalkStaysInside router.rtable router.rtableSize (router.destination .receiveBuffer)
  flushed : IsArpReply router → ∀ ptr ∈ router.q,
    FlushStaysInside router.rtable router.rtableSize (router.destination ptr)

/-- Handling a frame reads the routing table only at its entries exactly when
the lookups of the frame's destination and of the queued packets are kept inside.
Nothing is assumed of the table; being sorted does not help. -/
theorem handleReads_inside_iff (host : Host) (router : RouterState) (frame : Frame) :
    (∀ k ∈ handleReads host (router.receive frame), 0 ≤ k ∧ k < (router.rtableSize : Int)) ↔
      LookupsStayInside host (router.receive frame) := by
  change Inside (router.receive frame).rtableSize _ ↔ _
  generalize router.receive frame = received
  by_cases ipv4 : get16 received.m.payload etherType = htons 0x0800
  · have reads : handleReads host received = handleIpv4Reads host received := if_pos ipv4
    have notReply : ¬ IsArpReply received := fun reply =>
      htons_ipv4_ne_arp (ipv4.symm.trans reply.1)
    rw [reads, handleIpv4Reads_inside_iff]
    exact ⟨fun stays => ⟨fun _ => stays, fun reply => absurd reply notReply⟩,
      fun kept => kept.forwarded ipv4⟩
  by_cases reply : IsArpReply received
  · rw [reply_reads_inside_iff reply]
    exact ⟨fun stays => ⟨fun other => absurd other ipv4, fun _ => stays⟩,
      fun kept => kept.flushed reply⟩
  · have reads : handleReads host received = [] := by
      rw [handleReads, if_neg ipv4]
      split
      case isTrue arp =>
        simp only [handleArpReads]
        split
        case isTrue => rfl
        case isFalse => exact if_neg fun operation => reply ⟨arp, operation⟩
      case isFalse => rfl
    rw [reads]
    exact iff_of_true (inside_nil _)
      ⟨fun other => absurd other ipv4, fun other => absurd other reply⟩

/-- The best route of `sampleFrame` is entry 0 of a sorted table: the walk back
reads the entry before it. -/
theorem best_route_at_start_reads_outside :
    SortedTable sampleRouter.rtable sampleRouter.rtableSize ∧
      ¬ ∀ k ∈ handleReads sampleHost (sampleRouter.receive sampleFrame),
        0 ≤ k ∧ k < (sampleRouter.rtableSize : Int) := by
  constructor
  · intro i j low less high
    have size : (sampleRouter.rtableSize : Int) = 1 := rfl
    omega
  · intro inside
    have read : (-1 : Int) ∈ handleReads sampleHost (sampleRouter.receive sampleFrame) := by
      decide +kernel
    have bounds := inside (-1) read
    omega

end CommunicationProtocols.Router
