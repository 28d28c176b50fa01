import CommunicationProtocols.Router.ArpTable

/-!
# Request, reply and learning

The ARP request of one router, the reply of another and the learning step of the
first agree on the wire format. Each handler is described by the fields it
writes; the fields survive the way through a receive buffer whatever was in it.
-/

namespace CommunicationProtocols.Router

open Library Library.ByteBuffer

/-! ## Fields on the wire -/

/-- A field of a sent packet is the same field of the receive buffer it arrives in. -/
theorem get_receive_bytes {n : Nat} {field : Field n} {packet : Packet}
    (fits : field.offset + n ≤ packet.len) (buffer : ByteBuffer) :
    field.get (buffer.receive packet.bytes) = field.get packet.payload := by
  apply Vector.ext
  intro i bound
  have inside : field.offset + i < packet.bytes.length := by
    rw [Packet.bytes, length_contents]
    omega
  simp only [Field.get, getElem_read]
  rw [receive_apply_inside buffer packet.bytes inside]
  exact getElem_contents packet.payload packet.len _ _

section

variable {payload : ByteBuffer} {dhost shost sha tha : MacAddress} {op : BitVec 16}
  {spa tpa : Vector UInt8 4}

/-- An ARP packet that is not cut short arrives with its fields. -/
theorem ArpFields.receive {packet : Packet}
    (fields : ArpFields packet.payload dhost shost op sha spa tha tpa)
    (whole : sizeofEtherArp + sizeofEtherHeader ≤ packet.len) (buffer : ByteBuffer) :
    ArpFields (buffer.receive packet.bytes) dhost shost op sha spa tha tpa := by
  have kept {n : Nat} {field : Field n} (inside : field.offset + n ≤ 42) :
      field.get (buffer.receive packet.bytes) = field.get packet.payload :=
    get_receive_bytes (Nat.le_trans inside whole) buffer
  obtain ⟨dhost, shost, type, hrd, pro, hln, pln, op, sha, spa, tha, tpa⟩ := fields
  constructor
  case dhost => rw [kept (by decide), dhost]
  case shost => rw [kept (by decide), shost]
  case type => rw [get16, kept (by decide), ← get16, type]
  case hrd => rw [get16, kept (by decide), ← get16, hrd]
  case pro => rw [get16, kept (by decide), ← get16, pro]
  case hln =>
    simp only [get8, kept (by decide : arpHln.offset + 1 ≤ 42)]
    exact hln
  case pln =>
    simp only [get8, kept (by decide : arpPln.offset + 1 ≤ 42)]
    exact pln
  case op => rw [get16, kept (by decide), ← get16, op]
  case sha => rw [kept (by decide), sha]
  case spa => rw [kept (by decide), spa]
  case tha => rw [kept (by decide), tha]
  case tpa => rw [kept (by decide), tpa]

/-- The responder swaps sender and target and puts its own address for the
sender. No field is overwritten before it has been saved. -/
theorem arpReply_fields {packet : Packet} (host : Host)
    (fields : ArpFields packet.payload dhost shost op sha spa tha tpa) :
    ArpFields (arpReply host packet).payload shost (host.interfaceMac packet.interface) (htons 2)
      (host.interfaceMac packet.interface) tpa sha spa := by
  obtain ⟨dhost, shost, type, hrd, pro, hln, pln, op, sha, spa, tha, tpa⟩ := fields
  rw [← shost, ← sha, ← spa, ← tpa]
  rw [get16] at type hrd pro
  rw [get8] at hln pln
  simp only [Field.get, etherType, arpHrd, arpPro, arpHln, arpPln] at type hrd pro hln pln
  constructor <;>
    simp only [arpReply, get16, get8, set16, Field.set, Field.get, etherType, etherDhost,
      etherShost, arpHrd, arpPro, arpHln, arpPln, arpOp, arpSha, arpSpa, arpTha, arpTpa] <;>
    simp (disch := omega) [read_write_disjoint, type, hrd, pro, hln, pln]

end

/-! ## The two sides -/

section

variable {host : Host} {router : RouterState} {dhost shost sha tha : MacAddress}
  {spa tpa : Vector UInt8 4}

/-- A request for the address of the interface is answered. -/
theorem handle_request_own
    (fields : ArpFields router.m.payload dhost shost (htons 1) sha spa tha tpa)
    (own : host.interfaceIp router.m.interface = word32 tpa) :
    handle host router = sendBuffer router router.m.interface (arpReply host router.m) := by
  have target : get32 router.m.payload arpTpa = host.interfaceIp router.m.interface := by
    rw [get32, fields.tpa, own]
  rw [handle, if_neg (by rw [fields.type]; exact htons_ipv4_ne_arp.symm), if_pos fields.type]
  simp only [handleArp]
  rw [if_pos fields.op, if_pos target]
  rfl

/-- A request for any other address is ignored. -/
theorem handle_request_other
    (fields : ArpFields router.m.payload dhost shost (htons 1) sha spa tha tpa)
    (other : host.interfaceIp router.m.interface ≠ word32 tpa) :
    handle host router = (router, []) := by
  have target : get32 router.m.payload arpTpa ≠ host.interfaceIp router.m.interface := by
    rw [get32, fields.tpa]
    exact other.symm
  rw [handle, if_neg (by rw [fields.type]; exact htons_ipv4_ne_arp.symm), if_pos fields.type]
  simp only [handleArp]
  rw [if_pos fields.op, if_neg target]

/-- The first reply fills an empty table with its sender. -/
theorem arpEntries_reply_of_empty
    (fields : ArpFields router.m.payload dhost shost (htons 2) sha spa tha tpa)
    (empty : router.arpTableLen = 0) : arpEntries (handle host router).1 = [⟨spa, sha⟩] := by
  have none : arpEntries router = [] := by
    rw [arpEntries, empty]
    rfl
  rw [arpEntries_handle, if_pos ⟨fields.type, fields.op⟩, arpEntries_learn, none, if_pos (by simp),
    arpSender, fields.spa, fields.sha]
  rfl

end

/-! ## The exchange -/

/-- What comes back when a router receives an ARP request on interface `k`: one
frame on that interface, to the requester, with nothing learned or queued, from
which a requester with an empty table learns exactly the next hop. -/
structure Exchanged (hostA hostB : Host) (route : RouteTableEntry) (routerB : RouterState) (k : Int)
    (handled : RouterState × List Emission) : Prop where
  table : handled.1.arpTable = routerB.arpTable
  tableLen : handled.1.arpTableLen = routerB.arpTableLen
  queue : handled.1.q = routerB.q
  answered : ∃ bytes, handled.2 = [⟨k, bytes⟩] ∧
    bytes.take 6 = (hostA.interfaceMac route.interface).toList ∧
    ∀ (routerA : RouterState) (interface : Int), routerA.arpTableLen = 0 →
      arpEntries (handle hostA (routerA.receive ⟨interface, bytes⟩)).1 =
        [⟨bytes32 route.nextHop, hostB.interfaceMac k⟩]

/-- The request of one router as it lies in the receive buffer of another. -/
structure RequestReceived (hostA : Host) (route : RouteTableEntry) (k : Int)
    (received : RouterState) : Prop where
  fields : ArpFields received.m.payload (Vector.replicate 6 255)
    (hostA.interfaceMac route.interface) (htons 1) (hostA.interfaceMac route.interface)
    (bytes32 (hostA.interfaceIp route.interface)) (Vector.replicate 6 255) (bytes32 route.nextHop)
  interface : received.m.interface = k
  length : received.m.len = 42

/-- What the second router receives is the request of the first. -/
theorem requestReceived (hostA : Host) (route : RouteTableEntry) (packet : Packet)
    (routerB : RouterState) (k : Int) :
    RequestReceived hostA route k
      (routerB.receive ⟨k, (arpRequest hostA route packet).bytes⟩) := by
  have arrived := (arpRequest_fields hostA route packet).receive (Nat.le_refl 42) routerB.m.payload
  constructor
  case fields => simpa only [RouterState.receive, RouterState.store_m] using arrived
  case interface => rw [RouterState.receive, RouterState.store_m]
  case length =>
    rw [RouterState.receive, RouterState.store_m]
    exact length_contents _ _

/-- The reply goes to the requester, which learns from it where the next hop is. -/
theorem RequestReceived.replied {hostA : Host} {route : RouteTableEntry} {k : Int}
    {received : RouterState} (request : RequestReceived hostA route k received) (hostB : Host) :
    (arpReply hostB received.m).bytes.take 6 = (hostA.interfaceMac route.interface).toList ∧
      ∀ (routerA : RouterState) (interface : Int), routerA.arpTableLen = 0 →
        arpEntries (handle hostA
            (routerA.receive ⟨interface, (arpReply hostB received.m).bytes⟩)).1 =
          [⟨bytes32 route.nextHop, hostB.interfaceMac k⟩] := by
  have replied := arpReply_fields hostB request.fields
  rw [request.interface] at replied
  have whole : (arpReply hostB received.m).len = 42 := request.length
  constructor
  · have destination := @take_drop_bytes 6 (arpReply hostB received.m) etherDhost
      (by rw [whole]; decide)
    rw [replied.dhost] at destination
    exact destination
  · intro routerA interface empty
    have learned := replied.receive (by rw [whole]; decide) routerA.m.payload
    apply arpEntries_reply_of_empty
    case fields => simpa only [RouterState.receive, RouterState.store_m] using learned
    case empty => exact empty

/-- The request is the one the forwarding step of the first router builds over
any packet. It is answered if it asks for the interface it arrives on, and
ignored otherwise. -/
theorem arp_exchange (hostA hostB : Host) (route : RouteTableEntry) (packet : Packet)
    (routerB : RouterState) (k : Int) :
    (hostB.interfaceIp k = route.nextHop → Exchanged hostA hostB route routerB k
        (handle hostB (routerB.receive ⟨k, (arpRequest hostA route packet).bytes⟩))) ∧
      (hostB.interfaceIp k ≠ route.nextHop →
        handle hostB (routerB.receive ⟨k, (arpRequest hostA route packet).bytes⟩) =
          (routerB.receive ⟨k, (arpRequest hostA route packet).bytes⟩, [])) := by
  have request := requestReceived hostA route packet routerB k
  constructor
  · intro own
    rw [handle_request_own request.fields (by rw [request.interface, own, word32_bytes32]),
      request.interface]
    obtain ⟨destination, learned⟩ := request.replied hostB
    exact ⟨rfl, rfl, rfl, _, rfl, destination, learned⟩
  · intro other
    exact handle_request_other request.fields
      (by rw [request.interface, word32_bytes32]; exact other)

end CommunicationProtocols.Router
