import CommunicationProtocols.Router.Handler

/-!
# Next-hop resolution

The forwarding step should send a packet whose next hop is in the ARP table and
queue a packet whose next hop is not. The source tests `found == 0` where it
means the opposite, so each of the two cases does what the other one should.
-/

namespace CommunicationProtocols.Router

open Library

@[simp] theorem RouterState.store_q (router : RouterState) (ptr : PacketPtr) (packet : Packet) :
    (router.store ptr packet).q = router.q := rfl

@[simp] theorem RouterState.store_rtable (router : RouterState) (ptr : PacketPtr)
    (packet : Packet) : (router.store ptr packet).rtable = router.rtable := rfl

@[simp] theorem RouterState.store_rtableSize (router : RouterState) (ptr : PacketPtr)
    (packet : Packet) : (router.store ptr packet).rtableSize = router.rtableSize := rfl

@[simp] theorem RouterState.store_arpTable (router : RouterState) (ptr : PacketPtr)
    (packet : Packet) : (router.store ptr packet).arpTable = router.arpTable := rfl

@[simp] theorem RouterState.store_arpTableLen (router : RouterState) (ptr : PacketPtr)
    (packet : Packet) : (router.store ptr packet).arpTableLen = router.arpTableLen := rfl

@[simp] theorem RouterState.store_packets_same (router : RouterState) (ptr : PacketPtr)
    (packet : Packet) : (router.store ptr packet).packets ptr = packet := by
  simp [store]

@[simp] theorem RouterState.store_m (router : RouterState) (packet : Packet) :
    (router.store .receiveBuffer packet).m = packet := by
  simp [m]

@[simp] theorem RouterState.receive_q (router : RouterState) (frame : Frame) :
    (router.receive frame).q = router.q := rfl

@[simp] theorem RouterState.receive_arpTableLen (router : RouterState) (frame : Frame) :
    (router.receive frame).arpTableLen = router.arpTableLen := rfl

/-! ## The search in the ARP table -/

/-- The search stops at the first entry of the next hop, if there is one. -/
theorem findArp_spec (arpTable : Cells ArpEntry) (nextHop : Vector UInt8 4) (n : Nat) (i : Int) :
    (findArp arpTable nextHop n i = (false, -1) ∧
        ∀ j, i ≤ j → j < i + n → (arpTable j).ip ≠ nextHop) ∨
      ∃ j, i ≤ j ∧ j < i + n ∧ (arpTable j).ip = nextHop ∧
        findArp arpTable nextHop n i = (true, j) := by
  induction n generalizing i with
  | zero => exact .inl ⟨rfl, fun j low high => by omega⟩
  | succ n ih =>
      unfold findArp
      split
      case isTrue here => exact .inr ⟨i, by omega, by omega, here, rfl⟩
      case isFalse differs =>
        rcases ih (i + 1) with ⟨missed, none⟩ | ⟨j, low, high, here, found⟩
        · refine .inl ⟨missed, fun j low high => ?_⟩
          rcases eq_or_ne j i with rfl | later
          · exact differs
          · exact none j (by omega) (by omega)
        · exact .inr ⟨j, by omega, by omega, here, found⟩

/-- The indices at which the search reads the ARP table. -/
def findArpReads (arpTable : Cells ArpEntry) (nextHop : Vector UInt8 4) : Nat → Int → List Int
  | 0, _ => []
  | n + 1, i =>
      if (arpTable i).ip = nextHop then [i] else i :: findArpReads arpTable nextHop n (i + 1)

/-- The indices at which the forwarding step reads the ARP table: the search,
and the entry whose hardware address it copies. -/
def forwardArpReads (arpTable : Cells ArpEntry) (nextHop : Vector UInt8 4)
    (arpTableLen : Nat) : List Int :=
  let search := findArp arpTable nextHop arpTableLen 0
  findArpReads arpTable nextHop arpTableLen 0 ++ if search.1 = false then [search.2] else []

/-! ## Frames that reach the forwarding step -/

/-- The route of the packet in the receive buffer. -/
def RouterState.route (router : RouterState) : RouteTableEntry :=
  router.rtable (getBestRoute router.rtable router.rtableSize (get32 router.m.payload ipDaddr))

/-- The frame in the receive buffer is an IPv4 packet that is neither an echo
request for the router, nor unroutable, nor expired, and its checksum matches. -/
structure ReachesForwarding (host : Host) (router : RouterState) : Prop where
  ipv4 : get16 router.m.payload etherType = htons 0x0800
  notEcho : ¬ (get8 router.m.payload ipProtocol = 1 ∧ get8 router.m.payload icmpType = 8 ∧
    get32 router.m.payload ipDaddr = host.interfaceIp router.m.interface)
  routed : getBestRoute router.rtable router.rtableSize (get32 router.m.payload ipDaddr) ≠ -1
  alive : ¬ get8 router.m.payload ipTtl ≤ 1
  checksum : get16 (setIpCheck router.m.payload) ipCheck = get16 router.m.payload ipCheck

/-- The packet as the forwarding step sees it: the time to live is one less and
the checksum is recomputed, twice as in the source. -/
def forwardedPayload (payload : ByteBuffer) : ByteBuffer :=
  let payload := setIpCheck payload
  setIpCheck (set8 payload ipTtl (get8 payload ipTtl - 1))

/-- A new header checksum leaves the destination. -/
theorem ipDaddr_setIpCheck (payload : ByteBuffer) :
    get32 (setIpCheck payload) ipDaddr = get32 payload ipDaddr := by
  simp only [get32, setIpCheck, set16, Field.get, Field.set, ipDaddr, ipCheck]
  rw [ByteBuffer.read_write_disjoint _ _ (by omega), ByteBuffer.read_write_disjoint _ _ (by omega)]

/-- A new time to live leaves the destination. -/
theorem ipDaddr_set8_ipTtl (payload : ByteBuffer) (ttl : UInt8) :
    get32 (set8 payload ipTtl ttl) ipDaddr = get32 payload ipDaddr := by
  simp only [get32, set8, Field.get, Field.set, ipDaddr, ipTtl]
  rw [ByteBuffer.read_write_disjoint _ _ (by omega)]

/-- Forwarding leaves the destination. -/
theorem ipDaddr_forwardedPayload (payload : ByteBuffer) :
    get32 (forwardedPayload payload) ipDaddr = get32 payload ipDaddr := by
  simp only [forwardedPayload, ipDaddr_setIpCheck, ipDaddr_set8_ipTtl]

/-- A frame that reaches the forwarding step is handled by `forward`. -/
theorem handle_of_reaches {host : Host} {router : RouterState}
    (reaches : ReachesForwarding host router) :
    handle host router = forward host (router.store .receiveBuffer
      { router.m with payload := setIpCheck router.m.payload }) := by
  unfold handle
  rw [if_pos reaches.ipv4]
  unfold handleIpv4
  simp only [reaches.notEcho, reaches.routed, reaches.alive, reaches.checksum, if_true, if_false]

/-- The forwarding step when the ARP table does not have the next hop. -/
theorem handle_unresolved {host : Host} {router : RouterState}
    (reaches : ReachesForwarding host router)
    (missed : findArp router.arpTable (bytes32 router.route.nextHop) router.arpTableLen 0 =
      (false, -1)) :
    (handle host router).1.q = router.q ∧
      (handle host router).2.map Emission.interface = [router.route.interface] := by
  have daddr := ipDaddr_forwardedPayload router.m.payload
  simp only [forwardedPayload] at daddr
  simp only [RouterState.route] at missed ⊢
  rw [handle_of_reaches reaches]
  simp only [forward, RouterState.store_m, RouterState.store_rtable,
    RouterState.store_rtableSize, RouterState.store_arpTable, RouterState.store_arpTableLen, daddr,
    missed, if_true, RouterState.store_q, List.map_cons, List.map_nil, sendPacket, and_self]

/-- The forwarding step when the ARP table has the next hop. -/
theorem handle_resolved {host : Host} {router : RouterState}
    (reaches : ReachesForwarding host router) {i : Int}
    (found : findArp router.arpTable (bytes32 router.route.nextHop) router.arpTableLen 0 =
      (true, i)) :
    (handle host router).1.q = router.q ++ [.receiveBuffer] := by
  have daddr := ipDaddr_forwardedPayload router.m.payload
  simp only [forwardedPayload] at daddr
  simp only [RouterState.route] at found
  rw [handle_of_reaches reaches]
  simp only [forward, RouterState.store_m, RouterState.store_rtable,
    RouterState.store_rtableSize, RouterState.store_arpTable, RouterState.store_arpTableLen, daddr,
    found, Bool.true_eq_false, if_false, RouterState.store_q]

/-- The search depends on the entries it reads only. -/
theorem findArp_congr {arpTable arpTable' : Cells ArpEntry} {nextHop : Vector UInt8 4} {n : Nat}
    {i : Int} (same : ∀ k ∈ findArpReads arpTable nextHop n i, arpTable' k = arpTable k) :
    findArp arpTable' nextHop n i = findArp arpTable nextHop n i := by
  induction n generalizing i with
  | zero => rfl
  | succ n ih =>
      unfold findArpReads at same
      unfold findArp
      by_cases here : (arpTable i).ip = nextHop
      · rw [if_pos here] at same
        rw [same i List.mem_cons_self, if_pos here, if_pos here]
      · rw [if_neg here] at same
        rw [same i List.mem_cons_self, if_neg here, if_neg here]
        exact ih fun k member => same k (List.mem_cons_of_mem _ member)

/-- The forwarding step depends on the ARP entries it reads only. -/
theorem forward_reads (host : Host) {router : RouterState} {arpTable' : Cells ArpEntry}
    (same : ∀ k ∈ forwardArpReads router.arpTable (bytes32 router.route.nextHop)
      router.arpTableLen, arpTable' k = router.arpTable k) :
    forward host { router with arpTable := arpTable' } =
      ({ (forward host router).1 with arpTable := arpTable' }, (forward host router).2) := by
  have searched : findArp arpTable' (bytes32 router.route.nextHop) router.arpTableLen 0 =
      findArp router.arpTable (bytes32 router.route.nextHop) router.arpTableLen 0 :=
    findArp_congr fun k member => same k (List.mem_append_left _ member)
  have daddr : get32 (setIpCheck (set8 router.m.payload ipTtl (get8 router.m.payload ipTtl - 1)))
      ipDaddr = get32 router.m.payload ipDaddr := by
    rw [ipDaddr_setIpCheck, ipDaddr_set8_ipTtl]
  have buffer : RouterState.m { router with arpTable := arpTable' } = router.m := rfl
  simp only [RouterState.route] at searched same
  simp only [forward, buffer, daddr, searched]
  split
  case isTrue missed =>
    have copied := same _ (List.mem_append_right _ (by
      rw [if_pos missed]
      exact List.mem_cons_self))
    rw [copied]
    rfl
  case isFalse => rfl

/-! ## The law the forwarding step should obey -/

/-- A broadcast ARP request for an address. -/
structure IsArpRequest (bytes : List UInt8) (target : Vector UInt8 4) : Prop where
  length : bytes.length = sizeofEtherHeader + sizeofEtherArp
  broadcast : bytes.take 6 = List.replicate 6 255
  arp : (bytes.drop etherType.offset).take 2 = [0x08, 0x06]
  request : (bytes.drop arpOp.offset).take 2 = [0, 1]
  target : (bytes.drop arpTpa.offset).take 4 = target.toList

/-- Next-hop resolution decides what happens to the packet in the receive
buffer: a known next hop gets the packet, an unknown one is asked for while the
packet waits in the queue. -/
structure NextHopDecides (host : Host) (router : RouterState) : Prop where
  resolved : ∀ i, 0 ≤ i → i < (router.arpTableLen : Int) →
    (router.arpTable i).ip = bytes32 router.route.nextHop →
    (∃ bytes, (handle host router).2 = [⟨router.route.interface, bytes⟩] ∧
        bytes.take 6 = (router.arpTable i).mac.toList) ∧
      (handle host router).1.q = router.q
  unresolved : (∀ i, 0 ≤ i → i < (router.arpTableLen : Int) →
      (router.arpTable i).ip ≠ bytes32 router.route.nextHop) →
    (∃ ptr, (handle host router).1.q = router.q ++ [ptr]) ∧
      (∃ bytes, (handle host router).2 = [⟨router.route.interface, bytes⟩] ∧
        IsArpRequest bytes (bytes32 router.route.nextHop)) ∧
      ∀ i ∈ forwardArpReads router.arpTable (bytes32 router.route.nextHop) router.arpTableLen,
        0 ≤ i ∧ i < (router.arpTableLen : Int)

/-- Without an entry for the next hop nothing is queued. -/
theorem queue_unchanged_of_absent {host : Host} {router : RouterState}
    (reaches : ReachesForwarding host router)
    (absent : ∀ i, 0 ≤ i → i < (router.arpTableLen : Int) →
      (router.arpTable i).ip ≠ bytes32 router.route.nextHop) :
    (handle host router).1.q = router.q := by
  rcases findArp_spec router.arpTable (bytes32 router.route.nextHop) router.arpTableLen 0 with
    ⟨missed, _⟩ | ⟨i, low, high, here, _⟩
  · exact (handle_unresolved reaches missed).1
  · exact absurd here (absent i low (by omega))

/-- With an entry for the next hop the packet is queued. -/
theorem queue_grows_of_present {host : Host} {router : RouterState}
    (reaches : ReachesForwarding host router) {i : Int} (low : 0 ≤ i)
    (high : i < (router.arpTableLen : Int))
    (present : (router.arpTable i).ip = bytes32 router.route.nextHop) :
    (handle host router).1.q = router.q ++ [.receiveBuffer] := by
  rcases findArp_spec router.arpTable (bytes32 router.route.nextHop) router.arpTableLen 0 with
    ⟨_, none⟩ | ⟨j, _, _, _, found⟩
  · exact absurd present (none i low (by omega))
  · exact handle_resolved reaches found

/-- The forwarding step violates the law for every frame that reaches it. -/
theorem forward_never_decides (host : Host) (router : RouterState) (frame : Frame)
    (reaches : ReachesForwarding host (router.receive frame)) :
    ¬ NextHopDecides host (router.receive frame) := by
  intro decides
  by_cases present : ∃ i, 0 ≤ i ∧ i < ((router.receive frame).arpTableLen : Int) ∧
      ((router.receive frame).arpTable i).ip = bytes32 (router.receive frame).route.nextHop
  · obtain ⟨i, low, high, here⟩ := present
    have grows := queue_grows_of_present reaches low high here
    have stays := (decides.resolved i low high here).2
    rw [stays] at grows
    simp at grows
  · have absent : ∀ i, 0 ≤ i → i < ((router.receive frame).arpTableLen : Int) →
        ((router.receive frame).arpTable i).ip ≠
          bytes32 (router.receive frame).route.nextHop :=
      fun i low high here => present ⟨i, low, high, here⟩
    have stays := queue_unchanged_of_absent reaches absent
    obtain ⟨ptr, grows⟩ := (decides.unresolved absent).1
    rw [stays] at grows
    simp at grows

/-! ## A first packet -/

/-- Interface `i` is 192.168.`i`.1 and has the hardware address 02:00:00:00:00:`i`. -/
def sampleHost : Host where
  interfaceIp i := word32 #v[192, 168, UInt8.ofNat i.toNat, 1]
  interfaceMac i := #v[2, 0, 0, 0, 0, UInt8.ofNat i.toNat]

/-- A router that has just started with the route 192.168.1.0/24 via 192.168.1.2
on interface 1. The memory around the table is zero. -/
def sampleRouter : RouterState where
  packets _ := ⟨0, fun _ => 0, 0⟩
  blocks := 0
  rtable i := if i = 0 then ⟨0x0001a8c0, 0x0201a8c0, 0x00ffffff, 1⟩ else ⟨0, 0, 0, 0⟩
  rtableSize := 1
  arpTable _ := ⟨Vector.replicate 4 0, Vector.replicate 6 0⟩
  arpTableLen := 0
  q := []

/-- A UDP packet from 10.0.0.5 to 192.168.1.7 that arrives on interface 0. -/
def sampleFrame : Frame where
  interface := 0
  bytes :=
    [0x02, 0, 0, 0, 0, 0, 0x02, 0, 0, 0, 0, 0x99, 0x08, 0x00,
      0x45, 0, 0, 0x1c, 0, 0, 0, 0, 0x40, 0x11, 0xaf, 0x1d, 10, 0, 0, 5, 192, 168, 1, 7,
      0, 1, 0, 2, 0, 8, 0, 0]

theorem sampleRouter_initial : Initial sampleRouter where
  sorted := ⟨sampleRouter.rtable, by rw [quicksort, dif_neg (by decide)]⟩
  arpEmpty := rfl
  queueEmpty := rfl

theorem sampleFrame_reaches : ReachesForwarding sampleHost (sampleRouter.receive sampleFrame) where
  ipv4 := by decide +kernel
  notEcho := by decide +kernel
  routed := by decide +kernel
  alive := by decide +kernel
  checksum := by decide +kernel

/-- The law fails for `sampleFrame`. -/
theorem forward_never_decides_sample :
    ¬ NextHopDecides sampleHost (sampleRouter.receive sampleFrame) :=
  forward_never_decides sampleHost sampleRouter sampleFrame sampleFrame_reaches

/-- The first packet of a router whose ARP table is empty is sent at once, and
the queue stays empty. -/
theorem first_packet_not_queued :
    Initial sampleRouter ∧ ReachesForwarding sampleHost (sampleRouter.receive sampleFrame) ∧
      ¬ NextHopDecides sampleHost (sampleRouter.receive sampleFrame) := by
  refine ⟨sampleRouter_initial, sampleFrame_reaches, fun decides => ?_⟩
  have queue : (handle sampleHost (sampleRouter.receive sampleFrame)).1.q = [] := by
    decide +kernel
  obtain ⟨ptr, grows⟩ := (decides.unresolved fun i low high => by
    simp only [RouterState.receive_arpTableLen, sampleRouter] at high
    omega).1
  rw [queue, RouterState.receive_q] at grows
  cases grows

end CommunicationProtocols.Router
