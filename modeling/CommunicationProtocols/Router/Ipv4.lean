import CommunicationProtocols.Router.Forwarding

/-!
# The ways through the IPv4 branch

The IPv4 branch answers an echo request, reports a missing route, reports an
expired packet, drops a packet whose checksum differs, or forwards. Each way has
its own edits of the packet; the edits are described byte by byte, and the ways
in one case list.
-/

namespace CommunicationProtocols.Router

open Library Library.ByteBuffer

variable {payload payload' : ByteBuffer} {i : Nat}

/-! ## The bytes behind the fields -/

/-- A field of one byte is the byte at its offset. -/
theorem get8_eq (payload : ByteBuffer) (field : Field 1) :
    get8 payload field = payload field.offset :=
  getElem_read payload field.offset 1 0 (by decide)

/-- A field of two bytes depends on these. -/
theorem get16_congr {field : Field 2}
    (same : ∀ i, field.offset ≤ i → i < field.offset + 2 → payload i = payload' i) :
    get16 payload field = get16 payload' field := by
  refine congrArg word16 (Vector.ext fun i bound => ?_)
  simp only [Field.get, getElem_read]
  exact same _ (by omega) (by omega)

/-- A field of four bytes depends on these. -/
theorem get32_congr {field : Field 4}
    (same : ∀ i, field.offset ≤ i → i < field.offset + 4 → payload i = payload' i) :
    get32 payload field = get32 payload' field := by
  refine congrArg word32 (Vector.ext fun i bound => ?_)
  simp only [Field.get, getElem_read]
  exact same _ (by omega) (by omega)

/-- A field as part of the bytes of a packet. -/
theorem take_drop_bytes {n : Nat} {packet : Packet} {field : Field n}
    (fits : field.offset + n ≤ packet.len) :
    (packet.bytes.drop field.offset).take n = (field.get packet.payload).toList := by
  rw [Packet.bytes, take_drop_contents _ fits, slice_eq_read]
  rfl

/-- The bytes of a field are those of its word. -/
theorem get_eq_bytes16 (payload : ByteBuffer) (field : Field 2) :
    field.get payload = bytes16 (get16 payload field) :=
  (bytes16_word16 _).symm

/-- Setting a field leaves the bytes around it. -/
theorem set_apply_outside {n : Nat} {field : Field n} {bytes : Vector UInt8 n}
    (outside : ¬ (field.offset ≤ i ∧ i < field.offset + n)) :
    field.set payload bytes i = payload i :=
  write_apply_outside payload field.offset bytes outside

/-- A byte that was set is there. -/
theorem set8_apply_same (payload : ByteBuffer) (field : Field 1) (value : UInt8) :
    set8 payload field value field.offset = value :=
  write_apply_inside payload field.offset #v[value] 0 (by decide)

/-- Setting a byte leaves the others. -/
theorem set8_apply_other {field : Field 1} {value : UInt8} (other : i ≠ field.offset) :
    set8 payload field value i = payload i :=
  set_apply_outside (by omega)

/-- Setting a word leaves the bytes around it. -/
theorem set16_apply_outside {field : Field 2} {value : BitVec 16}
    (outside : i < field.offset ∨ field.offset + 2 ≤ i) :
    set16 payload field value i = payload i :=
  set_apply_outside (by omega)

/-- A word that was set is read back. -/
theorem get16_set16 (payload : ByteBuffer) (field : Field 2) (value : BitVec 16) :
    get16 (set16 payload field value) field = value := by
  rw [get16, set16, Field.get, Field.set, read_write_same, word16_bytes16]

/-! ## The bytes the edits leave alone -/

/-- Swapping the Ethernet addresses leaves what is behind them. -/
theorem swapMacs_apply_outside (outside : 12 ≤ i) : swapMacs payload i = payload i := by
  simp only [swapMacs]
  rw [set_apply_outside (by simp only [etherShost]; omega),
    set_apply_outside (by simp only [etherDhost]; omega)]

/-- Swapping the IP addresses leaves what is around them. -/
theorem swapAddrs_apply_outside (outside : i < 26 ∨ 34 ≤ i) :
    swapAddrs payload i = payload i := by
  simp only [swapAddrs, set32]
  rw [set_apply_outside (by simp only [ipSaddr]; omega),
    set_apply_outside (by simp only [ipDaddr]; omega)]

/-- A new header checksum leaves what is around it. -/
theorem setIpCheck_apply_outside (outside : i < 24 ∨ 26 ≤ i) :
    setIpCheck payload i = payload i := by
  simp only [setIpCheck, set16]
  rw [set_apply_outside (by simp only [ipCheck]; omega),
    set_apply_outside (by simp only [ipCheck]; omega)]

/-- A new ICMP checksum leaves what is around it. -/
theorem setIcmpChecksum_apply_outside (outside : i < 36 ∨ 38 ≤ i) :
    setIcmpChecksum payload i = payload i := by
  simp only [setIcmpChecksum, set16]
  rw [set_apply_outside (by simp only [icmpChecksum]; omega),
    set_apply_outside (by simp only [icmpChecksum]; omega)]

/-- Copying an address reaches the first five bytes only. -/
theorem copyMac_apply_outside {mac : MacAddress} (outside : 5 ≤ i) :
    copyMac payload mac i = payload i := by
  simp only [copyMac]
  rw [set_apply_outside (by simp only; omega)]

/-! ## The guards of the branch -/

section

variable (host : Host) (router : RouterState)

/-- The packet in the receive buffer is an echo request for the router. -/
def IsEchoRequest : Prop :=
  get8 router.m.payload ipProtocol = 1 ∧ get8 router.m.payload icmpType = 8 ∧
    get32 router.m.payload ipDaddr = host.interfaceIp router.m.interface

/-- The packet in the receive buffer has no route. -/
def Unroutable : Prop :=
  getBestRoute router.rtable router.rtableSize (get32 router.m.payload ipDaddr) = -1

/-- The packet in the receive buffer has no time to live left. -/
def Expired : Prop := get8 router.m.payload ipTtl ≤ 1

/-- The header checksum in the receive buffer is the one the code computes. -/
def CheckMatches : Prop :=
  get16 (setIpCheck router.m.payload) ipCheck = get16 router.m.payload ipCheck

instance : Decidable (IsEchoRequest host router) := inferInstanceAs (Decidable (_ ∧ _))
instance : Decidable (Unroutable router) := inferInstanceAs (Decidable (_ = _))
instance : Decidable (Expired router) := inferInstanceAs (Decidable (_ ≤ _))
instance : Decidable (CheckMatches router) := inferInstanceAs (Decidable (_ = _))

/-- The next hop of the packet in the receive buffer. -/
def RouterState.nextHop : Vector UInt8 4 := bytes32 router.route.nextHop

/-- The search of the forwarding step for the next hop. -/
def RouterState.search : Bool × Int :=
  findArp router.arpTable router.nextHop router.arpTableLen 0

/-! ## The packets of the branch -/

/-- A packet sent from the receive buffer. -/
def sendBuffer (interface : Int) (packet : Packet) : RouterState × List Emission :=
  (router.store .receiveBuffer packet, [sendPacket interface packet])

def echoReplyPacket : Packet := { router.m with payload := echoReply router.m.payload }

def unreachablePacket : Packet :=
  { router.m with len := icmpErrorLen, payload := destinationUnreachable router.m.payload }

def expiredPacket : Packet :=
  { router.m with len := icmpErrorLen, payload := timeExceeded router.m.payload }

/-- The packet whose next hop was not found in the ARP table. -/
def missedPacket : Packet :=
  let payload := forwardedPayload router.m.payload
  { router.m with
    payload := copyMac (etherShost.set payload (etherDhost.get payload))
      (router.arpTable (-1)).mac }

/-- The packet whose next hop was found in the ARP table. -/
def foundPacket : Packet := { router.m with payload := forwardedPayload router.m.payload }

/-- The state in which a packet has been queued and its ARP request built. -/
def queuedState : RouterState :=
  let stored := router.store .receiveBuffer (foundPacket router)
  { stored.store (.allocated router.blocks) (arpRequest host router.route (foundPacket router)) with
    blocks := router.blocks + 1
    q := router.q ++ [.receiveBuffer] }

end

/-- The ways through the IPv4 branch. -/
inductive Ipv4Outcome (host : Host) (router : RouterState) : Prop where
  | echo (request : IsEchoRequest host router)
      (handled : handleIpv4 host router =
        sendBuffer router router.m.interface (echoReplyPacket router))
  | unreachable (notEcho : ¬ IsEchoRequest host router) (unroutable : Unroutable router)
      (handled : handleIpv4 host router =
        sendBuffer router router.m.interface (unreachablePacket router))
  | expired (notEcho : ¬ IsEchoRequest host router) (routed : ¬ Unroutable router)
      (expired : Expired router)
      (handled : handleIpv4 host router =
        sendBuffer router router.m.interface (expiredPacket router))
  | dropped (notEcho : ¬ IsEchoRequest host router) (routed : ¬ Unroutable router)
      (alive : ¬ Expired router) (mismatch : ¬ CheckMatches router)
      (handled : handleIpv4 host router = (router.store .receiveBuffer
        { router.m with payload := setIpCheck router.m.payload }, []))
  | missed (notEcho : ¬ IsEchoRequest host router) (routed : ¬ Unroutable router)
      (alive : ¬ Expired router) (checked : CheckMatches router)
      (missed : router.search = (false, -1))
      (handled : handleIpv4 host router =
        sendBuffer router router.route.interface (missedPacket router))
  | found (notEcho : ¬ IsEchoRequest host router) (routed : ¬ Unroutable router)
      (alive : ¬ Expired router) (checked : CheckMatches router) (index : Nat)
      (inTable : index < router.arpTableLen)
      (entry : (router.arpTable index).ip = router.nextHop)
      (found : router.search = (true, (index : Int)))
      (handled : handleIpv4 host router = (queuedState host router,
        [sendPacket router.m.interface (arpRequest host router.route (foundPacket router))]))

@[simp] theorem RouterState.store_store (router : RouterState) (ptr : PacketPtr)
    (packet packet' : Packet) :
    (router.store ptr packet).store ptr packet' = router.store ptr packet' := by
  simp [store]

/-- The forwarding step, with the packet as it was received. -/
theorem forward_eq (host : Host) (router : RouterState) :
    forward host (router.store .receiveBuffer
        { router.m with payload := setIpCheck router.m.payload }) =
      if router.search.1 = false then
        sendBuffer router router.route.interface
          { router.m with
            payload := copyMac (etherShost.set (forwardedPayload router.m.payload)
              (etherDhost.get (forwardedPayload router.m.payload)))
              (router.arpTable router.search.2).mac }
      else
        (queuedState host router,
          [sendPacket router.m.interface (arpRequest host router.route (foundPacket router))]) := by
  have daddr := ipDaddr_forwardedPayload router.m.payload
  simp only [forwardedPayload] at daddr
  simp only [forward, RouterState.store_m, RouterState.store_rtable, RouterState.store_rtableSize,
    RouterState.store_arpTable, RouterState.store_arpTableLen, daddr, RouterState.store_store]
  rfl

/-- The branch as a choice between its packets. -/
theorem handleIpv4_eq (host : Host) (router : RouterState) :
    handleIpv4 host router =
      if IsEchoRequest host router then
        sendBuffer router router.m.interface (echoReplyPacket router)
      else if Unroutable router then
        sendBuffer router router.m.interface (unreachablePacket router)
      else if Expired router then
        sendBuffer router router.m.interface (expiredPacket router)
      else if CheckMatches router then
        if router.search.1 = false then
          sendBuffer router router.route.interface
            { router.m with
              payload := copyMac (etherShost.set (forwardedPayload router.m.payload)
                (etherDhost.get (forwardedPayload router.m.payload)))
                (router.arpTable router.search.2).mac }
        else
          (queuedState host router,
            [sendPacket router.m.interface (arpRequest host router.route (foundPacket router))])
      else
        (router.store .receiveBuffer
          { router.m with payload := setIpCheck router.m.payload }, []) := by
  rw [← forward_eq]
  rfl

/-- Every packet takes one of the ways. -/
theorem ipv4Outcome (host : Host) (router : RouterState) : Ipv4Outcome host router := by
  have branch := handleIpv4_eq host router
  by_cases echo : IsEchoRequest host router
  · rw [if_pos echo] at branch
    exact .echo echo branch
  rw [if_neg echo] at branch
  by_cases unroutable : Unroutable router
  · rw [if_pos unroutable] at branch
    exact .unreachable echo unroutable branch
  rw [if_neg unroutable] at branch
  by_cases expired : Expired router
  · rw [if_pos expired] at branch
    exact .expired echo unroutable expired branch
  rw [if_neg expired] at branch
  by_cases checked : CheckMatches router
  · rw [if_pos checked] at branch
    rcases findArp_spec router.arpTable router.nextHop router.arpTableLen 0 with
      ⟨missed, _⟩ | ⟨index, low, high, here, found⟩
    · have missed : router.search = (false, -1) := missed
      rw [if_pos (congrArg Prod.fst missed), missed] at branch
      exact .missed echo unroutable expired checked missed branch
    · have found : router.search = (true, index) := found
      obtain ⟨index, rfl⟩ := Int.eq_ofNat_of_zero_le low
      rw [if_neg (by simp [found])] at branch
      exact .found echo unroutable expired checked index (by omega) here found branch
  · rw [if_neg checked] at branch
    exact .dropped echo unroutable expired checked branch

/-! ## The ARP request -/

/-- The fields of an ARP packet for Ethernet and IPv4. -/
structure ArpFields (payload : ByteBuffer) (dhost shost : MacAddress) (op : BitVec 16)
    (sha : MacAddress) (spa : Vector UInt8 4) (tha : MacAddress) (tpa : Vector UInt8 4) : Prop where
  dhost : etherDhost.get payload = dhost
  shost : etherShost.get payload = shost
  type : get16 payload etherType = htons 0x0806
  hrd : get16 payload arpHrd = htons 1
  pro : get16 payload arpPro = htons 0x0800
  hln : get8 payload arpHln = 6
  pln : get8 payload arpPln = 4
  op : get16 payload arpOp = op
  sha : arpSha.get payload = sha
  spa : arpSpa.get payload = spa
  tha : arpTha.get payload = tha
  tpa : arpTpa.get payload = tpa

/-- Every field of an ARP request is written: none of the copied packet is left. -/
theorem arpRequest_fields (host : Host) (route : RouteTableEntry) (packet : Packet) :
    ArpFields (arpRequest host route packet).payload (Vector.replicate 6 255)
      (host.interfaceMac route.interface) (htons 1) (host.interfaceMac route.interface)
      (bytes32 (host.interfaceIp route.interface)) (Vector.replicate 6 255)
      (bytes32 route.nextHop) := by
  constructor <;>
    simp only [arpRequest, get16, get8, set16, set8, Field.set, Field.get, etherType, etherDhost,
      etherShost, arpHrd, arpPro, arpHln, arpPln, arpOp, arpSha, arpSpa, arpTha, arpTpa] <;>
    simp (disch := omega) [read_write_disjoint]

end CommunicationProtocols.Router
