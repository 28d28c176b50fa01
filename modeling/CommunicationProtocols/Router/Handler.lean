import CommunicationProtocols.Library.Execution
import CommunicationProtocols.Router.Frame
import CommunicationProtocols.Router.RouteTable

/-!
# The router's receive loop

One step of the machine is one iteration of the loop in `main`: a frame is read
into the single receive buffer and handled there in place. Packets are reached
through pointers, because the queue holds the address of the receive buffer and
not a copy of it.
-/

namespace CommunicationProtocols.Router

open Library

/-! ## State -/

/-- `struct arp_entry`. -/
structure ArpEntry where
  ip : Vector UInt8 4
  mac : MacAddress
deriving DecidableEq

/-- The address of a `packet`: the variable `m` of `main`, or a block of `malloc`. -/
inductive PacketPtr where
  | receiveBuffer
  | allocated (block : Nat)
deriving DecidableEq

/-- What the kernel reports about the interfaces: `inet_addr(get_interface_ip(i))`
and the bytes of `get_interface_mac`. -/
structure Host where
  interfaceIp : Int → BitVec 32
  interfaceMac : Int → MacAddress

/-- The variables of `main` and the globals. `arpTable` and `rtable` are memory:
their cells exist at every index, also before the first entry. -/
structure RouterState where
  packets : PacketPtr → Packet
  blocks : Nat
  rtable : Rtable
  rtableSize : Nat
  arpTable : Cells ArpEntry
  arpTableLen : Nat
  q : List PacketPtr

/-- One `send_packet`: the interface and the bytes written to it. -/
structure Emission where
  interface : Int
  bytes : List UInt8
deriving DecidableEq

/-- A frame as it arrives on an interface. -/
structure Frame where
  interface : Int
  bytes : List UInt8
deriving DecidableEq

namespace RouterState

/-- The receive buffer. -/
def m (router : RouterState) : Packet := router.packets .receiveBuffer

/-- Store a packet behind a pointer. -/
def store (router : RouterState) (ptr : PacketPtr) (packet : Packet) : RouterState :=
  { router with packets := Function.update router.packets ptr packet }

/-- `get_packet`: the bytes behind the frame's end keep their old values. -/
def receive (router : RouterState) (frame : Frame) : RouterState :=
  router.store .receiveBuffer
    { len := frame.bytes.length
      payload := router.m.payload.receive frame.bytes
      interface := frame.interface }

end RouterState

/-- `send_packet`. -/
def sendPacket (interface : Int) (packet : Packet) : Emission := ⟨interface, packet.bytes⟩

/-! ## Edits shared by the handlers -/

/-- Exchange the Ethernet addresses through `aux_eth`. -/
def swapMacs (payload : ByteBuffer) : ByteBuffer :=
  let aux := etherDhost.get payload
  let payload := etherDhost.set payload (etherShost.get payload)
  etherShost.set payload aux

/-- Exchange the IPv4 addresses. -/
def swapAddrs (payload : ByteBuffer) : ByteBuffer :=
  let aux := get32 payload ipDaddr
  let payload := set32 payload ipDaddr (get32 payload ipSaddr)
  set32 payload ipSaddr aux

/-- Zero the header checksum and recompute it. -/
def setIpCheck (payload : ByteBuffer) : ByteBuffer :=
  let payload := set16 payload ipCheck 0
  set16 payload ipCheck (ipChecksum payload sizeofEtherHeader sizeofIphdr)

/-- Zero the ICMP checksum and recompute it over the ICMP header. -/
def setIcmpChecksum (payload : ByteBuffer) : ByteBuffer :=
  let payload := set16 payload icmpChecksum 0
  set16 payload icmpChecksum
    (ipChecksum payload (sizeofEtherHeader + sizeofIphdr) sizeofIcmphdr)

/-! ## The IPv4 branch -/

/-- The reply to an echo request for the router. -/
def echoReply (payload : ByteBuffer) : ByteBuffer :=
  let payload := set8 payload icmpType 0
  let payload := set8 payload ipTtl 64
  let payload := swapMacs payload
  let payload := swapAddrs payload
  let payload := setIpCheck payload
  setIcmpChecksum payload

/-- The total length of both ICMP errors, as the source adds it up. -/
def icmpErrorTotLen : BitVec 16 :=
  htons (BitVec.ofNat 16 sizeofIcmphdr) + htons (BitVec.ofNat 16 sizeofIphdr)

/-- The ICMP error for a packet without a route. -/
def destinationUnreachable (payload : ByteBuffer) : ByteBuffer :=
  let payload := swapMacs payload
  let payload := set16 payload ipTotLen icmpErrorTotLen
  let payload := set8 payload ipTtl 64
  let payload := set8 payload ipProtocol 1
  let payload := setIpCheck payload
  let payload := swapAddrs payload
  let payload := set8 payload icmpType 3
  let payload := set8 payload icmpCode 0
  setIcmpChecksum payload

/-- The ICMP error for a packet whose time to live ran out. -/
def timeExceeded (payload : ByteBuffer) : ByteBuffer :=
  let payload := set8 payload ipTtl 64
  let payload := set8 payload ipProtocol 1
  let payload := set16 payload ipTotLen icmpErrorTotLen
  let payload := swapMacs payload
  let payload := swapAddrs payload
  let payload := setIpCheck payload
  let payload := set8 payload icmpType 11
  setIcmpChecksum payload

/-- The length of both ICMP errors. -/
def icmpErrorLen : Nat := sizeofEtherHeader + sizeofIphdr + sizeofIcmphdr

/-- The search of the forwarding step through the ARP table, with `n` entries
left from index `i`: `found` and `index1`. -/
def findArp (arpTable : Cells ArpEntry) (nextHop : Vector UInt8 4) : Nat → Int → Bool × Int
  | 0, _ => (false, -1)
  | n + 1, i =>
      if (arpTable i).ip = nextHop then (true, i) else findArp arpTable nextHop n (i + 1)

/-- The copy of a hardware address in the forwarding step, which stops after
five bytes. -/
def copyMac (payload : ByteBuffer) (mac : MacAddress) : ByteBuffer :=
  (Field.mk 0 : Field 5).set payload (mac.take 5)

/-- The ARP request for the next hop of a route, written over a copy of the packet. -/
def arpRequest (host : Host) (route : RouteTableEntry) (packet : Packet) : Packet :=
  let payload := packet.payload
  let payload := set16 payload etherType (htons 0x0806)
  let payload := set8 payload arpPln 4
  let payload := set8 payload arpHln 6
  let payload := set16 payload arpOp (htons 1)
  let payload := set16 payload arpHrd (htons 1)
  let payload := set16 payload arpPro (htons 0x0800)
  let payload := arpTpa.set payload (bytes32 route.nextHop)
  let payload := arpSha.set payload (host.interfaceMac route.interface)
  let payload := arpSpa.set payload (bytes32 (host.interfaceIp route.interface))
  let payload := arpTha.set payload (Vector.replicate 6 255)
  let payload := etherDhost.set payload (Vector.replicate 6 255)
  let payload := etherShost.set payload (host.interfaceMac route.interface)
  { packet with len := sizeofEtherArp + sizeofEtherHeader, payload := payload }

/-- The forwarding step behind the checksum test. -/
def forward (host : Host) (router : RouterState) : RouterState × List Emission :=
  let packet := router.m
  let payload := set8 packet.payload ipTtl (get8 packet.payload ipTtl - 1)
  let payload := setIpCheck payload
  let index := getBestRoute router.rtable router.rtableSize (get32 payload ipDaddr)
  let route := router.rtable index
  let search := findArp router.arpTable (bytes32 route.nextHop) router.arpTableLen 0
  if search.1 = false then
    let payload := etherShost.set payload (etherDhost.get payload)
    let payload := copyMac payload (router.arpTable search.2).mac
    let packet := { packet with payload := payload }
    (router.store .receiveBuffer packet, [sendPacket route.interface packet])
  else
    let packet := { packet with payload := payload }
    let router := router.store .receiveBuffer packet
    let newPacket := arpRequest host route packet
    let router := router.store (.allocated router.blocks) newPacket
    let router := { router with
      blocks := router.blocks + 1
      q := router.q ++ [.receiveBuffer] }
    (router, [sendPacket packet.interface newPacket])

/-- The IPv4 branch of the loop. -/
def handleIpv4 (host : Host) (router : RouterState) : RouterState × List Emission :=
  let packet := router.m
  let payload := packet.payload
  if get8 payload ipProtocol = 1 ∧ get8 payload icmpType = 8 ∧
      get32 payload ipDaddr = host.interfaceIp packet.interface then
    let packet := { packet with payload := echoReply payload }
    (router.store .receiveBuffer packet, [sendPacket packet.interface packet])
  else if getBestRoute router.rtable router.rtableSize (get32 payload ipDaddr) = -1 then
    let packet := { packet with len := icmpErrorLen, payload := destinationUnreachable payload }
    (router.store .receiveBuffer packet, [sendPacket packet.interface packet])
  else if get8 payload ipTtl ≤ 1 then
    let packet := { packet with len := icmpErrorLen, payload := timeExceeded payload }
    (router.store .receiveBuffer packet, [sendPacket packet.interface packet])
  else
    let check := get16 payload ipCheck
    let payload := setIpCheck payload
    let router := router.store .receiveBuffer { packet with payload := payload }
    if get16 payload ipCheck = check then forward host router else (router, [])

/-! ## The ARP branch -/

/-- The reply to an ARP request for the interface's own address. -/
def arpReply (host : Host) (packet : Packet) : Packet :=
  let payload := packet.payload
  let payload := etherDhost.set payload (etherShost.get payload)
  let payload := etherShost.set payload (host.interfaceMac packet.interface)
  let payload := set16 payload arpOp (htons 2)
  let auxIp := arpSpa.get payload
  let auxMac := arpSha.get payload
  let payload := arpSpa.set payload (arpTpa.get payload)
  let payload := arpSha.set payload (host.interfaceMac packet.interface)
  let payload := arpTpa.set payload auxIp
  let payload := arpTha.set payload auxMac
  { packet with payload := payload }

/-- The search of the learning step. `memcmp` is non-zero for different
addresses, so the search finds an entry of another host. -/
def differs (arpTable : Cells ArpEntry) (spa : Vector UInt8 4) : Nat → Int → Bool
  | 0, _ => false
  | n + 1, i => if (arpTable i).ip ≠ spa then true else differs arpTable spa n (i + 1)

/-- Learn the sender of an ARP reply. -/
def learn (router : RouterState) : RouterState :=
  let spa := arpSpa.get router.m.payload
  let sha := arpSha.get router.m.payload
  if differs router.arpTable spa router.arpTableLen 0 = false then
    { router with
      arpTable := Function.update router.arpTable router.arpTableLen ⟨spa, sha⟩
      arpTableLen := router.arpTableLen + 1 }
  else
    router

/-- The inner loop of the queue flush for one packet, with `n` ARP entries left
from index `i`: every matching entry rewrites the packet and sends it. -/
def resend (arpTable : Cells ArpEntry) (nextHop : Vector UInt8 4) :
    Nat → Int → Packet → Packet × List Emission
  | 0, _, packet => (packet, [])
  | n + 1, i, packet =>
      if (arpTable i).ip = nextHop then
        let packet := { packet with payload := etherDhost.set packet.payload (arpTable i).mac }
        let rest := resend arpTable nextHop n (i + 1) packet
        (rest.1, sendPacket packet.interface packet :: rest.2)
      else
        resend arpTable nextHop n (i + 1) packet

/-- One round of the drain loop for the packet taken from the queue. -/
def flushPacket (router : RouterState) (ptr : PacketPtr) : RouterState × List Emission :=
  let packet := router.packets ptr
  let index := getBestRoute router.rtable router.rtableSize (get32 packet.payload ipDaddr)
  let sent := resend router.arpTable (bytes32 (router.rtable index).nextHop) router.arpTableLen 0
    packet
  (router.store ptr sent.1, sent.2)

/-- The drain loop: the pointers dequeued from `q` are enqueued in `q_aux`. -/
def drain (router : RouterState) (qAux : List PacketPtr) :
    List PacketPtr → RouterState × List PacketPtr × List Emission
  | [] => (router, qAux, [])
  | ptr :: rest =>
      let flushed := flushPacket router ptr
      let drained := drain flushed.1 (qAux ++ [ptr]) rest
      (drained.1, drained.2.1, flushed.2 ++ drained.2.2)

/-- The flush of the queue after an ARP reply; the second loop moves `q_aux`
back into the emptied `q`. -/
def flush (router : RouterState) : RouterState × List Emission :=
  let drained := drain router [] router.q
  ({ drained.1 with q := [] ++ drained.2.1 }, drained.2.2)

/-- The ARP branch of the loop. -/
def handleArp (host : Host) (router : RouterState) : RouterState × List Emission :=
  let packet := router.m
  let payload := packet.payload
  if get16 payload arpOp = htons 1 then
    if get32 payload arpTpa = host.interfaceIp packet.interface then
      let reply := arpReply host packet
      (router.store .receiveBuffer reply, [sendPacket packet.interface reply])
    else
      (router, [])
  else if get16 payload arpOp = htons 2 then
    flush (learn router)
  else
    (router, [])

/-! ## The loop -/

/-- The branches of one iteration, on the packet in the receive buffer. -/
def handle (host : Host) (router : RouterState) : RouterState × List Emission :=
  if get16 router.m.payload etherType = htons 0x0800 then handleIpv4 host router
  else if get16 router.m.payload etherType = htons 0x0806 then handleArp host router
  else (router, [])

/-- The router as a machine on received frames; `read` returns at most `MAX_LEN` bytes. -/
def machine (host : Host) : Machine RouterState Frame Emission where
  Admits _ frame := frame.bytes.length ≤ maxLen
  step router frame := some (handle host (router.receive frame))

/-- The transitions of the loop on a list of frames. -/
def framesTrace (host : Host) : RouterState → List Frame →
    List (Transition RouterState Frame Emission)
  | _, [] => []
  | router, frame :: frames =>
      let handled := handle host (router.receive frame)
      ⟨router, frame, handled.2, handled.1⟩ :: framesTrace host handled.1 frames

/-- The state of the loop after a list of frames. -/
def framesFinal (host : Host) (router : RouterState) (frames : List Frame) : RouterState :=
  frames.foldl (fun router frame => (handle host (router.receive frame)).1) router

/-- The loop never gets stuck. -/
theorem frames_run {host : Host} {frames : List Frame} (router : RouterState)
    (bounded : ∀ frame ∈ frames, frame.bytes.length ≤ maxLen) :
    (machine host).Run router (framesTrace host router frames)
      (framesFinal host router frames) := by
  induction frames generalizing router with
  | nil => exact .refl
  | cons frame frames ih =>
      exact .cons (bounded frame List.mem_cons_self) rfl
        (ih _ fun later member => bounded later (List.mem_cons_of_mem frame member))

/-- `main` up to the loop: the table is read and sorted, the ARP table and the
queue are empty. All other memory is arbitrary. -/
structure Initial (router : RouterState) : Prop where
  sorted : ∃ unsorted : Rtable, router.rtable = quicksort unsorted 0 (router.rtableSize - 1)
  arpEmpty : router.arpTableLen = 0
  queueEmpty : router.q = []

end CommunicationProtocols.Router
