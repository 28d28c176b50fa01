import CommunicationProtocols.Router.Leftovers
import CommunicationProtocols.Router.TableOrder

/-!
# Frames that let earlier bytes through

Two runs that differ in the leftovers of the receive buffer only should treat a
frame alike. They do if the frame has every byte its handler uses. For every
other frame there are two runs that tell the leftovers apart: a router that has
just started, with leftovers that complete the frame in two ways, or for an ARP
reply without a destination address a router that has a packet waiting.
-/

namespace CommunicationProtocols.Router

open Library Library.ByteBuffer

/-- Routers with the same tables and the same waiting packets. -/
structure SameTables (router router' : RouterState) : Prop where
  rtable : router.rtable = router'.rtable
  rtableSize : router.rtableSize = router'.rtableSize
  arpTable : router.arpTable = router'.arpTable
  arpTableLen : router.arpTableLen = router'.arpTableLen
  waiting : (parked router).map (fun packet => (packet.interface, packet.bytes)) =
    (parked router').map fun packet => (packet.interface, packet.bytes)

/-- Two runs with the same tables and the same waiting packets treat a frame
alike, whatever else is in their receive buffers. -/
def LeftoverIndependent (frame : Frame) : Prop :=
  ∀ (host : Host) (start start' router router' : RouterState)
    (trace trace' : List (Transition RouterState Frame Emission)),
    Initial start → Initial start' → (machine host).Run start trace router →
    (machine host).Run start' trace' router' → SameTables router router' →
    (handle host (router.receive frame)).2 = (handle host (router'.receive frame)).2 ∧
      SameTables (handle host (router.receive frame)).1 (handle host (router'.receive frame)).1

/-! ## Complete frames -/

/-- A frame is written to the front of the receive buffer. -/
theorem RouterState.receive_payload (router : RouterState) (frame : Frame) :
    (router.receive frame).m.payload = router.m.payload.receive frame.bytes := by
  simp [receive]

/-- The length of the packet is that of the frame. -/
theorem RouterState.receive_len (router : RouterState) (frame : Frame) :
    (router.receive frame).m.len = frame.bytes.length := by
  simp [receive]

/-- The bytes of the packet are those of the frame. -/
theorem RouterState.receive_bytes (router : RouterState) (frame : Frame) :
    (router.receive frame).m.bytes = frame.bytes := by
  rw [receive, store_m, Packet.bytes, contents_receive _ (Nat.le_refl _)]
  simp

/-- Equal queue contents make equal queues when every pointer is the same. -/
theorem SameTables.q {router router' : RouterState} (same : SameTables router router')
    (aliased : Aliased router) (aliased' : Aliased router') : router.q = router'.q := by
  have length := congrArg List.length same.waiting
  simp only [parked, List.length_map] at length
  rw [List.eq_replicate_of_mem aliased, List.eq_replicate_of_mem aliased', length]

/-- The same frame makes states with the same tables the same up to leftovers. -/
theorem SameTables.receive {router router' : RouterState} (same : SameTables router router')
    (aliased : Aliased router) (aliased' : Aliased router') (frame : Frame) :
    SameUpToLeftovers (router.receive frame) (router'.receive frame) where
  rtable := same.rtable
  rtableSize := same.rtableSize
  arpTable := same.arpTable
  arpTableLen := same.arpTableLen
  q := same.q aliased aliased'
  buffer := by
    rw [RouterState.receive, RouterState.receive, RouterState.store_m, RouterState.store_m]
    exact ⟨rfl, rfl, fun i bound => (receive_apply_inside _ _ bound).trans
      (receive_apply_inside _ _ bound).symm⟩

/-- States that are the same up to leftovers have the same tables. -/
theorem SameUpToLeftovers.tables {router router' : RouterState}
    (same : SameUpToLeftovers router router') (aliased : Aliased router) :
    SameTables router router' where
  rtable := same.rtable
  rtableSize := same.rtableSize
  arpTable := same.arpTable
  arpTableLen := same.arpTableLen
  waiting := by
    have buffers : router.packets .receiveBuffer = router.m := rfl
    have buffers' : router'.packets .receiveBuffer = router'.m := rfl
    rw [parked, parked, ← same.q, List.map_map, List.map_map]
    refine List.map_congr_left fun ptr member => ?_
    simp only [Function.comp_apply]
    rw [aliased ptr member, buffers, buffers', same.buffer.interface, same.buffer.bytes]

/-- What is made of a complete frame does not depend on leftovers. -/
theorem leftoverIndependent_of_complete {frame : Frame} (complete : Complete frame.bytes) :
    LeftoverIndependent frame := by
  intro host start start' router router' trace trace' initial initial' run run' same
  have aliased : Aliased router := run.invariant aliased_preserved (initial_aliased initial)
  have aliased' : Aliased router' := run'.invariant aliased_preserved (initial_aliased initial')
  have received := same.receive aliased aliased' frame
  have outcome := received.handle host aliased
    ((RouterState.receive_bytes router frame).symm ▸ complete)
  exact ⟨outcome.emitted, outcome.state.tables (handle_aliased aliased)⟩

/-! ## A router that has just started -/

/-- A router without routes whose receive buffer holds arbitrary bytes. -/
def fresh (leftover : ByteBuffer) : RouterState where
  packets _ := ⟨0, leftover, 0⟩
  blocks := 0
  rtable _ := ⟨0, 0, 0, 0⟩
  rtableSize := 0
  arpTable _ := ⟨Vector.replicate 4 0, Vector.replicate 6 0⟩
  arpTableLen := 0
  q := []

/-- A fresh router is an initial one. -/
theorem fresh_initial (leftover : ByteBuffer) : Initial (fresh leftover) where
  sorted := ⟨(fresh leftover).rtable, by rw [quicksort, dif_neg (by simp [fresh])]⟩
  arpEmpty := rfl
  queueEmpty := rfl

/-- Leftovers that are the same byte except for one. -/
def marked (fill : UInt8) (position : Nat) (byte : UInt8) : ByteBuffer :=
  Function.update (fun _ => fill) position byte

section

variable {frame : Frame} {host : Host} {leftover leftover' : ByteBuffer}

/-- Two routers that have just started agree on a frame that is independent of leftovers. -/
theorem LeftoverIndependent.fresh (independent : LeftoverIndependent frame) (host : Host)
    (leftover leftover' : ByteBuffer) :
    (handle host ((fresh leftover).receive frame)).2 =
        (handle host ((Router.fresh leftover').receive frame)).2 ∧
      SameTables (handle host ((Router.fresh leftover).receive frame)).1
        (handle host ((Router.fresh leftover').receive frame)).1 :=
  independent host _ _ _ _ [] [] (fresh_initial leftover) (fresh_initial leftover') .refl .refl
    ⟨rfl, rfl, rfl, rfl, rfl⟩

/-- Behind the frame the leftovers show. -/
theorem fresh_apply_behind {i : Nat} (behind : frame.bytes.length ≤ i) :
    ((fresh leftover).receive frame).m.payload i = leftover i := by
  rw [RouterState.receive_payload, receive_apply_outside _ _ behind]
  rfl

/-- Inside the frame its bytes show. -/
theorem fresh_apply_inside {i : Nat} {byte : UInt8} (here : frame.bytes[i]? = some byte) :
    ((fresh leftover).receive frame).m.payload i = byte := by
  obtain ⟨bound, value⟩ := List.getElem?_eq_some_iff.mp here
  rw [RouterState.receive_payload, receive_apply_inside _ _ bound, value]

/-- The byte at a position is the same for leftovers that agree there. -/
theorem fresh_apply_congr {i : Nat} (agree : leftover i = leftover' i) :
    ((fresh leftover).receive frame).m.payload i =
      ((fresh leftover').receive frame).m.payload i := by
  rw [RouterState.receive_payload, RouterState.receive_payload]
  rcases Nat.lt_or_ge i frame.bytes.length with inside | behind
  · rw [receive_apply_inside _ _ inside, receive_apply_inside _ _ inside]
  · rw [receive_apply_outside _ _ behind, receive_apply_outside _ _ behind]
    exact agree

/-- Bytes at an offset are not there without those before it. -/
theorem length_of_take_drop {bytes : List UInt8} {offset : Nat} {first second : UInt8}
    (received : (bytes.drop offset).take 2 = [first, second]) : offset + 2 ≤ bytes.length := by
  have length := congrArg List.length received
  simp only [List.length_take, List.length_drop, List.length_cons, List.length_nil] at length
  omega

/-- A field that was received has the value of its bytes in the frame. -/
theorem received_get16 {router : RouterState} {field : Field 2} {value : BitVec 16}
    {first second : UInt8} (bytes : (bytes16 value).toList = [first, second])
    (received : (frame.bytes.drop field.offset).take 2 = [first, second]) :
    get16 (router.receive frame).m.payload field = value := by
  have fits : field.offset + 2 ≤ (router.receive frame).m.len := by
    rw [RouterState.receive_len]
    exact length_of_take_drop received
  rw [← take_drop_eq_iff bytes fits, RouterState.receive_bytes]
  exact received

/-- An empty table has no route. -/
theorem getBestRoute_empty (rtable : Rtable) (destIp : BitVec 32) :
    getBestRoute rtable 0 destIp = -1 := by
  refine getBestRoute_of_none (bisect_of_empty ?_)
  simp

/-! ## Leaks of a router that has just started -/

/-- Equal fields have equal bytes. -/
theorem get_apply {n i : Nat} {field : Field n} {payload payload' : ByteBuffer}
    (same : field.get payload = field.get payload') (bound : i < n) :
    payload (field.offset + i) = payload' (field.offset + i) := by
  have bytes : (field.get payload)[i] = (field.get payload')[i] := by rw [same]
  simpa [Field.get] using bytes

/-- Equal words have equal bytes. -/
theorem get32_apply {i : Nat} {field : Field 4} {payload payload' : ByteBuffer}
    (same : get32 payload field = get32 payload' field) (bound : i < 4) :
    payload (field.offset + i) = payload' (field.offset + i) := by
  refine get_apply ?_ bound
  rw [← bytes32_word32 (field.get payload), ← bytes32_word32 (field.get payload')]
  exact congrArg bytes32 same

/-- Without routes every IPv4 packet is answered. -/
theorem fresh_ipv4 (type : get16 ((fresh leftover).receive frame).m.payload etherType =
      htons 0x0800) :
    handle host ((fresh leftover).receive frame) =
      if IsEchoRequest host ((fresh leftover).receive frame) then
        sendBuffer ((fresh leftover).receive frame) frame.interface
          (echoReplyPacket ((fresh leftover).receive frame))
      else
        sendBuffer ((fresh leftover).receive frame) frame.interface
          (unreachablePacket ((fresh leftover).receive frame)) := by
  have unroutable : Unroutable ((fresh leftover).receive frame) := getBestRoute_empty _ _
  have interface : ((fresh leftover).receive frame).m.interface = frame.interface := by
    simp [RouterState.receive]
  rw [handle, if_pos type, handleIpv4_eq, interface, if_pos unroutable]

/-- A cut type is completed to IPv4 by one leftover and to nothing by another. -/
theorem leak_type (short : frame.bytes.length ≤ 13)
    (eight : frame.bytes.length = 13 → frame.bytes[12]? = some 0x08) :
    ¬ LeftoverIndependent frame := by
  intro independent
  have host : Host := ⟨fun _ => 0, fun _ => Vector.replicate 6 0⟩
  have first (byte : UInt8) :
      ((fresh (marked 0x08 13 byte)).receive frame).m.payload 12 = 0x08 := by
    rcases Nat.eq_or_lt_of_le short with cut | shorter
    · exact fresh_apply_inside (eight cut)
    · exact fresh_apply_behind (by omega)
  have second (byte : UInt8) :
      ((fresh (marked 0x08 13 byte)).receive frame).m.payload 13 = byte := by
    rw [fresh_apply_behind short, marked, Function.update_self]
  have type (byte : UInt8) {value : BitVec 16} {high low : UInt8}
      (bytes : (bytes16 value).toList = [high, low]) :
      get16 ((fresh (marked 0x08 13 byte)).receive frame).m.payload etherType = value ↔
        0x08 = high ∧ byte = low := by
    have iff := @get16_eq_iff ((fresh (marked 0x08 13 byte)).receive frame).m.payload etherType
      value high low bytes
    simp only [etherType] at iff
    rwa [first, second] at iff
  have answered : (handle host ((fresh (marked 0x08 13 0)).receive frame)).2 ≠ [] := by
    rw [fresh_ipv4 ((type 0 rfl).mpr ⟨rfl, rfl⟩)]
    split <;> exact List.cons_ne_nil _ _
  have silent : (handle host ((fresh (marked 0x08 13 1)).receive frame)).2 = [] := by
    have notIpv4 : get16 ((fresh (marked 0x08 13 1)).receive frame).m.payload etherType ≠
        htons 0x0800 := fun ipv4 => absurd ((type 1 rfl).mp ipv4).2 (by decide)
    have notArp : get16 ((fresh (marked 0x08 13 1)).receive frame).m.payload etherType ≠
        htons 0x0806 := fun arp => absurd ((type 1 rfl).mp arp).2 (by decide)
    rw [handle, if_neg notIpv4, if_neg notArp]
  exact answered ((independent.fresh host _ _).1.trans silent)

/-- A destination unreachable leaves what is behind the checksum. -/
theorem destinationUnreachable_apply_behind (payload : ByteBuffer) {i : Nat} (behind : 38 ≤ i) :
    destinationUnreachable payload i = payload i := by
  simp only [destinationUnreachable]
  rw [setIcmpChecksum_apply_outside (.inr behind),
    set8_apply_other (by simp only [icmpCode]; omega),
    set8_apply_other (by simp only [icmpType]; omega), swapAddrs_apply_outside (.inr (by omega)),
    setIpCheck_apply_outside (.inr (by omega)), set8_apply_other (by simp only [ipProtocol]; omega),
    set8_apply_other (by simp only [ipTtl]; omega),
    set16_apply_outside (.inr (by simp only [ipTotLen]; omega)),
    swapMacs_apply_outside (by omega)]

/-- The last byte of an ICMP error comes from behind a shorter IPv4 packet. -/
theorem leak_ipv4 (ipv4 : (frame.bytes.drop etherType.offset).take 2 = [0x08, 0x00])
    (short : frame.bytes.length < 42) : ¬ LeftoverIndependent frame := by
  intro independent
  have agree {i : Nat} (other : i ≠ 41) (byte : UInt8) : marked 0 41 byte i = marked 0 41 0 i := by
    rw [marked, marked, Function.update_of_ne other, Function.update_of_ne other]
  -- an address that the packet is not sent to
  let host : Host := ⟨fun _ => ~~~ get32 ((fresh (marked 0 41 0)).receive frame).m.payload ipDaddr,
    fun _ => Vector.replicate 6 0⟩
  have notEcho (byte : UInt8) :
      ¬ IsEchoRequest host ((fresh (marked 0 41 byte)).receive frame) := by
    rintro ⟨_, _, own⟩
    have daddr : get32 ((fresh (marked 0 41 byte)).receive frame).m.payload ipDaddr =
        get32 ((fresh (marked 0 41 0)).receive frame).m.payload ipDaddr := by
      refine get32_congr fun i _ high => fresh_apply_congr (agree ?_ byte)
      simp only [ipDaddr] at high
      omega
    rw [daddr] at own
    exact BitVec.ne_not_self (by decide) own
  have sent (byte : UInt8) : (handle host ((fresh (marked 0 41 byte)).receive frame)).2 =
      [sendPacket frame.interface
        (unreachablePacket ((fresh (marked 0 41 byte)).receive frame))] := by
    rw [fresh_ipv4 (received_get16 rfl ipv4), if_neg (notEcho byte)]
    rfl
  have last (byte : UInt8) : (unreachablePacket
      ((fresh (marked 0 41 byte)).receive frame)).bytes[41]? = some byte := by
    have kept := destinationUnreachable_apply_behind
      ((fresh (marked 0 41 byte)).receive frame).m.payload (by decide : 38 ≤ 41)
    rw [fresh_apply_behind (by omega), marked, Function.update_self] at kept
    rw [Packet.getElem?_bytes (by decide : 41 < icmpErrorLen)]
    exact congrArg some kept
  have same := (independent.fresh host (marked 0 41 0) (marked 0 41 1)).1
  rw [sent, sent] at same
  have bytes := congrArg (fun emissions => (emissions.head?.map Emission.bytes)) same
  simp only [sendPacket, List.head?_cons, Option.map_some, Option.some.injEq] at bytes
  have byte := (last 0).symm.trans ((congrArg (·[41]?) bytes).trans (last 1))
  exact absurd byte (by decide)

/-- Without entries an ARP packet is handled by its operation. -/
theorem fresh_arp (arp : (frame.bytes.drop etherType.offset).take 2 = [0x08, 0x06]) :
    handle host ((fresh leftover).receive frame) =
      handleArp host ((fresh leftover).receive frame) := by
  have type : get16 ((fresh leftover).receive frame).m.payload etherType = htons 0x0806 :=
    received_get16 rfl arp
  have notIpv4 : get16 ((fresh leftover).receive frame).m.payload etherType ≠ htons 0x0800 :=
    fun ipv4 => htons_ipv4_ne_arp (ipv4.symm.trans type)
  rw [handle, if_neg notIpv4, if_pos type]

/-- An ARP request for the address of the interface is answered, others are not. -/
theorem fresh_request (arp : (frame.bytes.drop etherType.offset).take 2 = [0x08, 0x06])
    (request : get16 ((fresh leftover).receive frame).m.payload arpOp = htons 1) :
    (handle host ((fresh leftover).receive frame)).2 ≠ [] ↔
      get32 ((fresh leftover).receive frame).m.payload arpTpa =
        host.interfaceIp frame.interface := by
  have interface : ((fresh leftover).receive frame).m.interface = frame.interface := by
    simp [RouterState.receive]
  rw [fresh_arp arp]
  simp only [handleArp]
  rw [if_pos request, interface]
  split
  case isTrue own => exact iff_of_true (List.cons_ne_nil _ _) own
  case isFalse other => exact iff_of_false (fun nonempty => nonempty rfl) other

/-- A cut operation is completed to a request by one leftover only. -/
theorem leak_operation (arp : (frame.bytes.drop etherType.offset).take 2 = [0x08, 0x06])
    (short : frame.bytes.length ≤ 21)
    (zero : frame.bytes.length = 21 → frame.bytes[20]? = some 0) :
    ¬ LeftoverIndependent frame := by
  intro independent
  let host : Host := ⟨fun _ => 0, fun _ => Vector.replicate 6 0⟩
  have first (byte : UInt8) : ((fresh (marked 0 21 byte)).receive frame).m.payload 20 = 0 := by
    rcases Nat.eq_or_lt_of_le short with cut | shorter
    · exact fresh_apply_inside (zero cut)
    · exact fresh_apply_behind (by omega)
  have second (byte : UInt8) :
      ((fresh (marked 0 21 byte)).receive frame).m.payload 21 = byte := by
    rw [fresh_apply_behind short, marked, Function.update_self]
  have op (byte : UInt8) {value : BitVec 16} {high low : UInt8}
      (bytes : (bytes16 value).toList = [high, low]) :
      get16 ((fresh (marked 0 21 byte)).receive frame).m.payload arpOp = value ↔
        0 = high ∧ byte = low := by
    have iff := @get16_eq_iff ((fresh (marked 0 21 byte)).receive frame).m.payload arpOp
      value high low bytes
    simp only [arpOp] at iff
    rwa [first, second] at iff
  have answered : (handle host ((fresh (marked 0 21 1)).receive frame)).2 ≠ [] := by
    refine (fresh_request arp ((op 1 rfl).mpr ⟨rfl, rfl⟩)).mpr ?_
    have zeros : get32 ((fresh (marked 0 21 1)).receive frame).m.payload arpTpa =
        get32 (fun _ => 0) arpTpa := by
      refine get32_congr fun i low _ => ?_
      simp only [arpTpa] at low
      rw [fresh_apply_behind (by omega), marked, Function.update_of_ne (by omega)]
    exact zeros.trans (by decide : get32 (fun _ => 0) arpTpa = 0)
  have silent : (handle host ((fresh (marked 0 21 0)).receive frame)).2 = [] := by
    have notRequest : get16 ((fresh (marked 0 21 0)).receive frame).m.payload arpOp ≠ htons 1 :=
      fun request => absurd ((op 0 rfl).mp request).2 (by decide)
    have notReply : get16 ((fresh (marked 0 21 0)).receive frame).m.payload arpOp ≠ htons 2 :=
      fun reply => absurd ((op 0 rfl).mp reply).2 (by decide)
    rw [fresh_arp arp]
    simp only [handleArp]
    rw [if_neg notRequest, if_neg notReply]
  exact answered ((independent.fresh host _ _).1.trans silent)

/-- A cut target address is completed to the address of the interface by one
leftover only. -/
theorem leak_request (arp : (frame.bytes.drop etherType.offset).take 2 = [0x08, 0x06])
    (request : (frame.bytes.drop arpOp.offset).take 2 = [0, 1])
    (short : frame.bytes.length < 42) : ¬ LeftoverIndependent frame := by
  intro independent
  let host : Host := ⟨fun _ => get32 ((fresh (marked 0 41 0)).receive frame).m.payload arpTpa,
    fun _ => Vector.replicate 6 0⟩
  have last (byte : UInt8) : ((fresh (marked 0 41 byte)).receive frame).m.payload 41 = byte := by
    rw [fresh_apply_behind (by omega), marked, Function.update_self]
  have answered : (handle host ((fresh (marked 0 41 0)).receive frame)).2 ≠ [] :=
    (fresh_request arp (received_get16 rfl request)).mpr rfl
  have silent : (handle host ((fresh (marked 0 41 1)).receive frame)).2 = [] := by
    refine not_not.mp fun nonempty => ?_
    have own := (fresh_request arp (received_get16 rfl request)).mp nonempty
    have bytes := get32_apply own (by decide : 3 < 4)
    exact absurd ((last 1).symm.trans (bytes.trans (last 0))) (by decide)
  exact answered ((independent.fresh host _ _).1.trans silent)

end

/-! ## A router with a packet waiting -/

section

variable {rtable : Rtable} {rtableSize : Nat} {destIp destIp' mask : BitVec 32}

/-- With one mask for all routes the lookup reads the masked address. -/
theorem getBestRoute_masked (uniform : ∀ i, (rtable i).mask = mask)
    (same : destIp &&& mask = destIp' &&& mask) :
    getBestRoute rtable rtableSize destIp = getBestRoute rtable rtableSize destIp' := by
  have probes : verdict rtable destIp = verdict rtable destIp' := by
    funext i
    rw [verdict, verdict, uniform, same]
  have walks (index : Nat) : walkBack rtable destIp index = walkBack rtable destIp' index := by
    induction index with
    | zero => rfl
    | succ index ih =>
        rw [walkBack, walkBack, betterNeighbour, betterNeighbour, uniform, uniform, same, ih]
  rw [getBestRoute, getBestRoute, binarySearch_eq_bisect, binarySearch_eq_bisect, probes]
  simp only [walks]

end

/-- The most significant byte of a word in memory is the last. -/
theorem word32_and_lastByte (a b c d : UInt8) :
    word32 #v[a, b, c, d] &&& 0xff000000 = word32 #v[0, 0, 0, d] := by
  have mask : (0xff000000 : BitVec 32) = BitVec.allOnes 8 ++ 0#8 ++ 0#8 ++ 0#8 := by decide
  simp only [word32, Vector.getElem_mk, List.getElem_toArray, List.getElem_cons_zero,
    List.getElem_cons_succ]
  rw [mask, BitVec.and_append, BitVec.and_append, BitVec.and_append, BitVec.and_allOnes,
    BitVec.and_zero, BitVec.and_zero, BitVec.and_zero]
  rfl

/-- A field of four bytes is the word of these. -/
theorem get32_eq (payload : ByteBuffer) (field : Field 4) :
    get32 payload field = word32 #v[payload field.offset, payload (field.offset + 1),
      payload (field.offset + 2), payload (field.offset + 3)] := rfl

/-- Two routes that differ in the last byte of the addresses they cover. -/
def lastByteRoutes : Rtable := fun i =>
  ⟨if i = 0 then 0 else 0x01000000, if i = 0 then word32 #v[10, 0, 0, 1] else word32 #v[10, 0, 0, 2],
    0xff000000, 1⟩

/-- A router that has just started with `lastByteRoutes`. -/
def twoHops : RouterState :=
  { sampleRouter with rtable := quicksort lastByteRoutes 0 1, rtableSize := 2 }

/-- An ARP reply from 10.0.0.1. -/
def knownHopFrame : Frame where
  interface := 1
  bytes :=
    [0x02, 0, 0, 0, 0, 1, 0x02, 0, 0, 0, 0, 0x77, 0x08, 0x06,
      0, 1, 0x08, 0x00, 6, 4, 0, 2, 0x02, 0, 0, 0, 0, 0x77, 10, 0, 0, 1,
      0x02, 0, 0, 0, 0, 1, 192, 168, 1, 1]

/-- A UDP packet from 10.0.0.5 to 192.168.1.0, whose next hop is 10.0.0.1. -/
def waitingFrame : Frame where
  interface := 0
  bytes :=
    [0x02, 0, 0, 0, 0, 0, 0x02, 0, 0, 0, 0, 0x99, 0x08, 0x00,
      0x45, 0, 0, 0x1c, 0, 0, 0, 0, 0x40, 0x11, 0xaf, 0x24, 10, 0, 0, 5, 192, 168, 1, 0,
      0, 1, 0, 2, 0, 8, 0, 0]

/-- A frame of no known type with a byte where the destination address ends. -/
def markingFrame (byte : UInt8) : Frame := ⟨0, List.replicate 33 0 ++ [byte]⟩

/-- A frame of no known type without content. -/
def headerFrame : Frame := ⟨0, List.replicate 14 0⟩

/-- The router with a packet waiting for 10.0.0.1. -/
def queuedRouter : RouterState := framesFinal sampleHost twoHops [knownHopFrame, waitingFrame]

/-- The router with a byte left where the next destination address ends. -/
def RouterState.mark (router : RouterState) (byte : UInt8) : RouterState :=
  (router.receive (markingFrame byte)).receive headerFrame

section

variable (router : RouterState) (byte : UInt8)

theorem mark_q : (router.mark byte).q = router.q := rfl

theorem mark_rtable : (router.mark byte).rtable = router.rtable := rfl

theorem mark_rtableSize : (router.mark byte).rtableSize = router.rtableSize := rfl

theorem mark_arpTable : (router.mark byte).arpTable = router.arpTable := rfl

theorem mark_arpTableLen : (router.mark byte).arpTableLen = router.arpTableLen := rfl

theorem mark_arpEntries : arpEntries (router.mark byte) = arpEntries router := rfl

/-- The mark is where the destination address ends. -/
theorem mark_last : (router.mark byte).m.payload 33 = byte := by
  rw [RouterState.mark, RouterState.receive_payload,
    receive_apply_outside _ _ (by simp [headerFrame]), RouterState.receive_payload,
    receive_apply_inside _ _ (by simp [markingFrame])]
  simp [markingFrame]

/-- The marks do not show in what an observer sees of the waiting packets. -/
theorem mark_sameTables (waiting : router.q = [.receiveBuffer]) (other : UInt8) :
    SameTables (router.mark byte) (router.mark other) := by
  have parkedPacket (byte : UInt8) : parked (router.mark byte) = [(router.mark byte).m] := by
    rw [parked, mark_q, waiting]
    rfl
  have bytes (byte : UInt8) : (router.mark byte).m.bytes = headerFrame.bytes :=
    RouterState.receive_bytes _ _
  have interface (byte : UInt8) : (router.mark byte).m.interface = headerFrame.interface := by
    simp [RouterState.mark, RouterState.receive]
  constructor
  case waiting =>
    rw [parkedPacket, parkedPacket]
    simp only [List.map_cons, List.map_nil, bytes, interface]
  case rtable => rw [mark_rtable, mark_rtable]
  case rtableSize => rw [mark_rtableSize, mark_rtableSize]
  case arpTable => rw [mark_arpTable, mark_arpTable]
  case arpTableLen => rw [mark_arpTableLen, mark_arpTableLen]

end

theorem twoHops_initial : Initial twoHops where
  sorted := ⟨lastByteRoutes, rfl⟩
  arpEmpty := rfl
  queueEmpty := rfl

/-- No handler writes to the routing table. -/
theorem handle_rtable (host : Host) (router : RouterState) :
    (handle host router).1.rtable = router.rtable ∧
      (handle host router).1.rtableSize = router.rtableSize := by
  have drained (router : RouterState) (qAux ptrs : List PacketPtr) :
      (drain router qAux ptrs).1.rtable = router.rtable ∧
        (drain router qAux ptrs).1.rtableSize = router.rtableSize := by
    induction ptrs generalizing router qAux with
    | nil => exact ⟨rfl, rfl⟩
    | cons ptr rest ih => exact ih (flushPacket router ptr).1 (qAux ++ [ptr])
  have learned : (learn router).rtable = router.rtable ∧
      (learn router).rtableSize = router.rtableSize := by
    rw [learn_eq]
    split <;> exact ⟨rfl, rfl⟩
  rcases handleOutcome host router with ⟨_, _, handled⟩ | ⟨_, _, handled⟩ | ⟨_, _, handled⟩ |
    ⟨_, _, handled⟩
  all_goals rw [handled]
  · rcases ipv4Outcome host router with ⟨_, branch⟩ | ⟨_, _, branch⟩ | ⟨_, _, _, branch⟩ |
      ⟨_, _, _, _, branch⟩ | ⟨_, _, _, _, _, branch⟩ | ⟨_, _, _, _, _, _, _, _, branch⟩
    all_goals
      rw [branch]
      exact ⟨rfl, rfl⟩
  · exact ⟨rfl, rfl⟩
  · exact ⟨(drained _ _ _).1.trans learned.1, (drained _ _ _).2.trans learned.2⟩
  · exact ⟨rfl, rfl⟩

/-- A frame of no known type is only received. -/
theorem handle_untyped {host : Host} {router : RouterState}
    (untyped : router.m.payload etherType.offset = 0) : handle host router = (router, []) := by
  have notIpv4 : get16 router.m.payload etherType ≠ htons 0x0800 := fun ipv4 =>
    absurd (untyped.symm.trans ((get16_eq_iff rfl).mp ipv4).1) (by decide)
  have notArp : get16 router.m.payload etherType ≠ htons 0x0806 := fun arp =>
    absurd (untyped.symm.trans ((get16_eq_iff rfl).mp arp).1) (by decide)
  rw [handle, if_neg notIpv4, if_neg notArp]

/-- Both frames of no known type are only received. -/
theorem mark_eq (host : Host) (router : RouterState) (byte : UInt8) :
    framesFinal host router [markingFrame byte, headerFrame] = router.mark byte := by
  have marking : handle host (router.receive (markingFrame byte)) =
      (router.receive (markingFrame byte), []) := by
    refine handle_untyped ?_
    rw [RouterState.receive_payload, receive_apply_inside _ _ (by simp [markingFrame, etherType])]
    simp [markingFrame, etherType]
  have header : handle host (router.mark byte) = (router.mark byte, []) := by
    refine handle_untyped ?_
    rw [RouterState.mark, RouterState.receive_payload,
      receive_apply_inside _ _ (by simp [headerFrame, etherType])]
    simp [headerFrame, etherType]
  simp only [framesFinal, List.foldl_cons, List.foldl_nil]
  rw [marking]
  exact congrArg Prod.fst header

theorem mark_run (byte : UInt8) : (machine sampleHost).Run twoHops
    (framesTrace sampleHost twoHops
      ([knownHopFrame, waitingFrame] ++ [markingFrame byte, headerFrame]))
    (queuedRouter.mark byte) := by
  have final : framesFinal sampleHost twoHops
      ([knownHopFrame, waitingFrame] ++ [markingFrame byte, headerFrame]) =
        queuedRouter.mark byte := by
    rw [← mark_eq sampleHost, queuedRouter, framesFinal, List.foldl_append]
    rfl
  rw [← final]
  refine frames_run twoHops fun frame member => ?_
  simp only [List.cons_append, List.nil_append, List.mem_cons, List.not_mem_nil, or_false] at member
  rcases member with rfl | rfl | rfl | rfl
  all_goals simp [knownHopFrame, waitingFrame, markingFrame, headerFrame, maxLen]

theorem queuedRouter_waiting : queuedRouter.q = [.receiveBuffer] ∧
    arpEntries queuedRouter = [⟨#v[10, 0, 0, 1], #v[0x02, 0, 0, 0, 0, 0x77]⟩] := by
  decide +kernel

/-- The route of a frame that ends before its destination address does. -/
theorem mark_nextHop {router : RouterState} (rtable : router.rtable = twoHops.rtable)
    (rtableSize : router.rtableSize = 2) {frame : Frame} (short : frame.bytes.length ≤ 33)
    (byte : UInt8) : ((router.mark byte).receive frame).nextHop =
      bytes32 (twoHops.rtable
        (getBestRoute twoHops.rtable 2 (word32 #v[0, 0, 0, byte]))).nextHop := by
  have uniform (i : Int) : (twoHops.rtable i).mask = 0xff000000 := by
    obtain ⟨move, _, moved⟩ := Lomuto.quicksort_rearranges sortsBefore lastByteRoutes 0 1
    have entry : twoHops.rtable i = lastByteRoutes (move i) := by
      simp only [twoHops, quicksort_eq_lomuto, moved, Function.comp_apply]
    rw [entry]
    rfl
  have last : ((router.mark byte).receive frame).m.payload (ipDaddr.offset + 3) = byte := by
    rw [RouterState.receive_payload, receive_apply_outside _ _ (by simpa [ipDaddr] using short)]
    exact mark_last router byte
  have masked : get32 ((router.mark byte).receive frame).m.payload ipDaddr &&& 0xff000000 =
      word32 #v[0, 0, 0, byte] &&& 0xff000000 := by
    rw [get32_eq, last, word32_and_lastByte, word32_and_lastByte]
  have route : ((router.mark byte).receive frame).route = twoHops.rtable
      (getBestRoute twoHops.rtable 2 (word32 #v[0, 0, 0, byte])) := by
    rw [← getBestRoute_masked uniform masked, ← rtable, ← rtableSize]
    rfl
  rw [RouterState.nextHop, route]

/-- With one entry in the ARP table the flush finds the next hop if it is that entry. -/
theorem flushFindsNextHop_iff {router : RouterState} {entry : ArpEntry}
    (entries : arpEntries router = [entry]) :
    FlushFindsNextHop router ↔ entry.ip = router.nextHop := by
  simp only [FlushFindsNextHop, entries, List.mem_singleton, exists_eq_left, forall_eq]
  exact ⟨fun found => found.elim id fun learned => learned.1.trans learned.2, .inl⟩

/-- A cut destination address decides whether the waiting packet is sent. -/
theorem leak_destination {frame : Frame}
    (arp : (frame.bytes.drop etherType.offset).take 2 = [0x08, 0x06])
    (reply : (frame.bytes.drop arpOp.offset).take 2 = [0, 2])
    (short : frame.bytes.length ≤ 33) : ¬ LeftoverIndependent frame := by
  intro independent
  obtain ⟨queue, entries⟩ := queuedRouter_waiting
  have rtable : queuedRouter.rtable = twoHops.rtable :=
    (handle_rtable _ _).1.trans (handle_rtable _ _).1
  have rtableSize : queuedRouter.rtableSize = 2 :=
    (handle_rtable _ _).2.trans (handle_rtable _ _).2
  have same := (independent sampleHost twoHops twoHops _ _ _ _ twoHops_initial twoHops_initial
    (mark_run 0) (mark_run 1) (mark_sameTables queuedRouter 0 queue 1)).1
  have silent (byte : UInt8) :
      (handle sampleHost ((queuedRouter.mark byte).receive frame)).2 = [] ↔
        (#v[10, 0, 0, 1] : Vector UInt8 4) ≠
          ((queuedRouter.mark byte).receive frame).nextHop := by
    have waits : ((queuedRouter.mark byte).receive frame).q = [.receiveBuffer] := by
      rw [RouterState.receive_q, mark_q, queue]
    have aliased : Aliased ((queuedRouter.mark byte).receive frame) := fun ptr member =>
      List.mem_singleton.mp (waits ▸ member)
    rw [reply_silent_iff aliased ⟨received_get16 rfl arp, received_get16 rfl reply⟩,
      flushFindsNextHop_iff (by rw [arpEntries_receive, mark_arpEntries, entries])]
    exact or_iff_right fun empty => List.cons_ne_nil _ _ (waits.symm.trans empty)
  have sent : (handle sampleHost ((queuedRouter.mark 0).receive frame)).2 ≠ [] := by
    rw [Ne, silent, mark_nextHop rtable rtableSize short]
    decide +kernel
  have quiet : (handle sampleHost ((queuedRouter.mark 1).receive frame)).2 = [] := by
    rw [silent, mark_nextHop rtable rtableSize short]
    decide +kernel
  exact sent (same.trans quiet)

/-! ## The exact condition -/

/-- A frame is treated alike in all runs that differ in leftovers exactly if it
is as long as its handler expects. -/
theorem leftoverIndependent_iff (frame : Frame) :
    LeftoverIndependent frame ↔ Complete frame.bytes := by
  refine ⟨fun independent => ?_, leftoverIndependent_of_complete⟩
  constructor
  case framed =>
    refine Nat.not_lt.mp fun short => leak_type (by omega) (fun cut => ?_) independent
    omega
  case typed => exact fun cut eight => leak_type (by omega) (fun _ => eight) independent
  case ipv4 => exact fun ipv4 => Nat.not_lt.mp fun short => leak_ipv4 ipv4 short independent
  case operation =>
    refine fun arp => ⟨Nat.not_lt.mp fun short => ?_, fun cut zero => ?_⟩
    · exact leak_operation arp (by omega) (fun cut => by omega) independent
    · exact leak_operation arp (by omega) (fun _ => zero) independent
  case request =>
    exact fun arp request => Nat.not_lt.mp fun short => leak_request arp request short independent
  case reply =>
    exact fun arp reply => Nat.not_lt.mp fun short =>
      leak_destination arp reply (by omega) independent

/-- An IPv4 packet without payload, from 10.0.0.5 to 192.168.1.7. -/
def bareHeaderFrame : Frame where
  interface := 0
  bytes :=
    [0x02, 0, 0, 0, 0, 0, 0x02, 0, 0, 0, 0, 0x99, 0x08, 0x00,
      0x45, 0, 0, 0x14, 0, 0, 0, 0, 0x40, 0xfd, 0xae, 0x39, 10, 0, 0, 5, 192, 168, 1, 7]

/-- The ICMP error for a packet of 34 bytes has 42: the last 8 are leftovers. -/
theorem bareHeader_leaks :
    bareHeaderFrame.bytes.length ≤ maxLen ∧ ¬ LeftoverIndependent bareHeaderFrame :=
  ⟨by decide, leak_ipv4 (by decide) (by decide)⟩

end CommunicationProtocols.Router
