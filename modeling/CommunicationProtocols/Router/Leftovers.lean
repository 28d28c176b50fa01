import CommunicationProtocols.Router.LinkLayer

/-!
# What earlier frames leave in the receive buffer

A read overwrites the first bytes of the receive buffer only. Two routers that
differ in the bytes behind the frame handle it alike as long as no handler reads
or sends a byte that was not received: every edit keeps two buffers equal up to
the length they agree on, and so does every branch that stays below it.
-/

namespace CommunicationProtocols.Router

open Library Library.ByteBuffer

/-- Two buffers agree on their first `n` bytes. -/
def AgreeBelow (n : Nat) (payload payload' : ByteBuffer) : Prop :=
  ∀ i, i < n → payload i = payload' i

namespace AgreeBelow

variable {n k : Nat} {payload payload' : ByteBuffer}

/-- Payloads agree below a smaller bound, too. -/
theorem mono (agree : AgreeBelow n payload payload') (le : k ≤ n) :
    AgreeBelow k payload payload' := fun i bound => agree i (Nat.lt_of_lt_of_le bound le)

/-- A field below the bound has the same bytes. -/
theorem get (agree : AgreeBelow n payload payload') (field : Field k)
    (fits : field.offset + k ≤ n) : field.get payload = field.get payload' := by
  refine Vector.ext fun i bound => ?_
  simp only [Field.get, getElem_read]
  exact agree _ (by omega)

theorem get8 (agree : AgreeBelow n payload payload') (field : Field 1)
    (fits : field.offset + 1 ≤ n) : get8 payload field = Router.get8 payload' field := by
  rw [Router.get8, Router.get8, agree.get field fits]

theorem get16 (agree : AgreeBelow n payload payload') (field : Field 2)
    (fits : field.offset + 2 ≤ n) : get16 payload field = Router.get16 payload' field :=
  congrArg word16 (agree.get field fits)

theorem get32 (agree : AgreeBelow n payload payload') (field : Field 4)
    (fits : field.offset + 4 ≤ n) : get32 payload field = Router.get32 payload' field :=
  congrArg word32 (agree.get field fits)

/-- A slice below the bound is the same. -/
theorem slice (agree : AgreeBelow n payload payload') {offset len : Nat} (fits : offset + len ≤ n) :
    payload.slice offset len = payload'.slice offset len :=
  slice_congr fun _ _ high => agree _ (by omega)

/-- Writing the same bytes to the same field keeps two buffers equal. -/
theorem set (agree : AgreeBelow n payload payload') (field : Field k) (bytes : Vector UInt8 k) :
    AgreeBelow n (field.set payload bytes) (field.set payload' bytes) := by
  intro i bound
  by_cases inside : field.offset ≤ i ∧ i < field.offset + k
  · obtain ⟨j, rfl⟩ := Nat.exists_eq_add_of_le inside.1
    rw [Field.set, Field.set, write_apply_inside _ _ _ j (by omega),
      write_apply_inside _ _ _ j (by omega)]
  · rw [set_apply_outside inside, set_apply_outside inside]
    exact agree i bound

/-! ## The checksum reads the bytes it covers -/

/-- The sum over blocks below the bound is the same. -/
theorem sumBlocks (agree : AgreeBelow n payload payload') {address blocks acc : Nat}
    (fits : address + 4 * blocks ≤ n) :
    sumBlocks payload address blocks acc = Router.sumBlocks payload' address blocks acc := by
  induction blocks generalizing address acc with
  | zero => rfl
  | succ blocks ih =>
      have word : payload.read address 4 = payload'.read address 4 :=
        agree.get ⟨address⟩ (by simp only; omega)
      rw [sumBlocks_succ, sumBlocks_succ, word, ih (by omega)]

/-- A word at the end below the bound is the same. -/
theorem partialWord (agree : AgreeBelow n payload payload') {address skip count : Nat}
    (fits : address + count ≤ n) :
    partialWord payload address skip count = Router.partialWord payload' address skip count := by
  refine Vector.ext fun i bound => ?_
  simp only [Router.partialWord, Vector.getElem_ofFn]
  split
  case isTrue inside => exact agree _ (by omega)
  case isFalse => rfl

/-- The checksum of bytes below the bound is the same. -/
theorem ipChecksum (agree : AgreeBelow n payload payload') {address length : Nat}
    (fits : address + length ≤ n) :
    ipChecksum payload address length = Router.ipChecksum payload' address length := by
  unfold Router.ipChecksum
  dsimp only
  have inside : (if address % 4 = 0 then 0 else min (4 - address % 4) length) ≤ length := by
    split
    · exact Nat.zero_le _
    · exact Nat.min_le_right _ _
  generalize (if address % 4 = 0 then 0 else min (4 - address % 4) length) = count at inside ⊢
  rw [agree.partialWord (by omega), agree.partialWord (by omega), agree.sumBlocks (by omega)]

/-! ## The edits of the handlers -/

/-- Swapping the Ethernet addresses keeps the agreement. -/
theorem swapMacs (agree : AgreeBelow n payload payload') (long : 12 ≤ n) :
    AgreeBelow n (swapMacs payload) (Router.swapMacs payload') := by
  simp only [Router.swapMacs]
  rw [agree.get etherDhost (Nat.le_trans (by decide) long), agree.get etherShost long]
  exact (agree.set _ _).set _ _

/-- Swapping the IP addresses keeps the agreement. -/
theorem swapAddrs (agree : AgreeBelow n payload payload') (long : 34 ≤ n) :
    AgreeBelow n (swapAddrs payload) (Router.swapAddrs payload') := by
  simp only [Router.swapAddrs]
  rw [agree.get32 ipDaddr long, agree.get32 ipSaddr (Nat.le_trans (by decide) long)]
  exact (agree.set _ _).set _ _

/-- A checksum of bytes below the bound keeps the agreement. -/
theorem setChecksum (agree : AgreeBelow n payload payload') {field : Field 2}
    {address length : Nat} (fits : address + length ≤ n) :
    AgreeBelow n (setChecksum payload field address length)
      (Router.setChecksum payload' field address length) := by
  simp only [Router.setChecksum]
  have zeroed : AgreeBelow n (set16 payload field 0) (set16 payload' field 0) := agree.set _ _
  rw [zeroed.ipChecksum fits]
  exact zeroed.set _ _

theorem setIpCheck (agree : AgreeBelow n payload payload') (long : 34 ≤ n) :
    AgreeBelow n (setIpCheck payload) (Router.setIpCheck payload') :=
  agree.setChecksum long

theorem setIcmpChecksum (agree : AgreeBelow n payload payload') (long : 42 ≤ n) :
    AgreeBelow n (setIcmpChecksum payload) (Router.setIcmpChecksum payload') :=
  agree.setChecksum long

/-- Echo replies agree where the requests do. -/
theorem echoReply (agree : AgreeBelow n payload payload') (long : 42 ≤ n) :
    AgreeBelow n (echoReply payload) (Router.echoReply payload') := by
  have edited := ((agree.set icmpType #v[0]).set ipTtl #v[64]).swapMacs (by omega)
  exact ((edited.swapAddrs (by omega)).setIpCheck (by omega)).setIcmpChecksum long

/-- Answers to packets without a route agree where the packets do. -/
theorem destinationUnreachable (agree : AgreeBelow n payload payload') (long : 42 ≤ n) :
    AgreeBelow n (destinationUnreachable payload) (Router.destinationUnreachable payload') := by
  have edited := (((agree.swapMacs (by omega)).set ipTotLen (bytes16 icmpErrorTotLen)).set ipTtl
    #v[64]).set ipProtocol #v[1]
  have swapped := (edited.setIpCheck (by omega)).swapAddrs (by omega)
  exact ((swapped.set icmpType #v[3]).set icmpCode #v[0]).setIcmpChecksum long

/-- Answers to expired packets agree where the packets do. -/
theorem timeExceeded (agree : AgreeBelow n payload payload') (long : 42 ≤ n) :
    AgreeBelow n (timeExceeded payload) (Router.timeExceeded payload') := by
  have edited := ((agree.set ipTtl #v[64]).set ipProtocol #v[1]).set ipTotLen
    (bytes16 icmpErrorTotLen)
  have swapped := ((edited.swapMacs (by omega)).swapAddrs (by omega)).setIpCheck (by omega)
  exact (swapped.set icmpType #v[11]).setIcmpChecksum long

/-- Forwarded packets agree where they did. -/
theorem forwardedPayload (agree : AgreeBelow n payload payload') (long : 34 ≤ n) :
    AgreeBelow n (forwardedPayload payload) (Router.forwardedPayload payload') := by
  have checked := agree.setIpCheck long
  simp only [Router.forwardedPayload]
  rw [checked.get8 ipTtl (Nat.le_trans (by decide) long)]
  exact (checked.set ipTtl _).setIpCheck long

/-- Every field of an ARP request is written over the packet it is copied from. -/
theorem arpRequest {packet packet' : Packet} (agree : AgreeBelow n packet.payload packet'.payload)
    (host : Host) (route : RouteTableEntry) :
    AgreeBelow n (arpRequest host route packet).payload
      (Router.arpRequest host route packet').payload :=
  (((((((((((agree.set _ _).set _ _).set _ _).set _ _).set _ _).set _ _).set _ _).set _ _).set _
    _).set _ _).set _ _).set _ _

/-- ARP replies agree where the requests do. -/
theorem arpReply {packet packet' : Packet} (agree : AgreeBelow n packet.payload packet'.payload)
    (long : 42 ≤ n) (host : Host) (interface : packet.interface = packet'.interface) :
    AgreeBelow n (arpReply host packet).payload (Router.arpReply host packet').payload := by
  have front (mac : MacAddress) : AgreeBelow n
      (set16 (etherShost.set (etherDhost.set packet.payload (etherShost.get packet.payload)) mac)
        arpOp (htons 2))
      (set16 (etherShost.set (etherDhost.set packet'.payload (etherShost.get packet'.payload)) mac)
        arpOp (htons 2)) := by
    rw [agree.get etherShost (Nat.le_trans (by decide) long)]
    exact ((agree.set _ _).set _ _).set _ _
  simp only [Router.arpReply, interface]
  rw [(front _).get arpSpa (Nat.le_trans (by decide) long),
    (front _).get arpSha (Nat.le_trans (by decide) long), (front _).get arpTpa long]
  exact ((((front _).set _ _).set _ _).set _ _).set _ _

end AgreeBelow

/-! ## Packets and states that differ in leftovers -/

/-- Packets that an observer cannot tell apart. -/
structure SamePacket (packet packet' : Packet) : Prop where
  len : packet.len = packet'.len
  interface : packet.interface = packet'.interface
  payload : AgreeBelow packet.len packet.payload packet'.payload

/-- The same packet has the same bytes. -/
theorem SamePacket.bytes {packet packet' : Packet} (same : SamePacket packet packet') :
    packet.bytes = packet'.bytes := by
  rw [Packet.bytes, Packet.bytes, ← same.len]
  exact contents_eq_iff.mpr same.payload

/-- The same packet is sent as the same frame. -/
theorem SamePacket.sendPacket {packet packet' : Packet} (same : SamePacket packet packet')
    (interface : Int) : sendPacket interface packet = sendPacket interface packet' := by
  rw [Router.sendPacket, Router.sendPacket, same.bytes]

/-- An edit that keeps the buffers equal keeps the packets the same, also when
it shortens them. -/
theorem SamePacket.edit {packet packet' : Packet} (same : SamePacket packet packet') {n len : Nat}
    {payload payload' : ByteBuffer} (agree : AgreeBelow n payload payload') (fits : len ≤ n) :
    SamePacket { packet with len := len, payload := payload }
      { packet' with len := len, payload := payload' } :=
  ⟨rfl, same.interface, agree.mono fits⟩

/-- Packets stay the same with payloads that agree. -/
theorem SamePacket.setPayload {packet packet' : Packet} (same : SamePacket packet packet')
    {payload payload' : ByteBuffer} (agree : AgreeBelow packet.len payload payload') :
    SamePacket { packet with payload := payload } { packet' with payload := payload' } :=
  ⟨same.len, same.interface, agree⟩

/-- Routers that differ in the bytes behind the packet in the receive buffer,
and in memory nothing points to. -/
structure SameUpToLeftovers (router router' : RouterState) : Prop where
  rtable : router.rtable = router'.rtable
  rtableSize : router.rtableSize = router'.rtableSize
  arpTable : router.arpTable = router'.arpTable
  arpTableLen : router.arpTableLen = router'.arpTableLen
  q : router.q = router'.q
  buffer : SamePacket router.m router'.m

/-- The same emissions, and routers that differ in leftovers. -/
structure SameOutcome (result result' : RouterState × List Emission) : Prop where
  emitted : result.2 = result'.2
  state : SameUpToLeftovers result.1 result'.1

/-- Under the same condition outcomes are the same if those of both ways are. -/
theorem SameOutcome.ite {first second first' second' : RouterState × List Emission}
    {condition condition' : Prop} [Decidable condition] [Decidable condition']
    (agree : condition ↔ condition') (yes : condition → SameOutcome first first')
    (no : ¬ condition → SameOutcome second second') :
    SameOutcome (if condition then first else second)
      (if condition' then first' else second') := by
  by_cases holds : condition
  · rw [if_pos holds, if_pos (agree.mp holds)]
    exact yes holds
  · rw [if_neg holds, if_neg (mt agree.mpr holds)]
    exact no holds

namespace SameUpToLeftovers

variable {router router' : RouterState}

/-- Storing packets that look the same keeps the routers the same. -/
theorem store (same : SameUpToLeftovers router router') {packet packet' : Packet}
    (packets : SamePacket packet packet') :
    SameUpToLeftovers (router.store .receiveBuffer packet)
      (router'.store .receiveBuffer packet') where
  rtable := same.rtable
  rtableSize := same.rtableSize
  arpTable := same.arpTable
  arpTableLen := same.arpTableLen
  q := same.q
  buffer := by rwa [RouterState.store_m, RouterState.store_m]

/-- The same packet is sent alike. -/
theorem sendBuffer (same : SameUpToLeftovers router router') {packet packet' : Packet}
    (packets : SamePacket packet packet') (interface : Int) :
    SameOutcome (sendBuffer router interface packet) (sendBuffer router' interface packet') :=
  ⟨congrArg (fun emission => [emission]) (packets.sendPacket interface), same.store packets⟩

/-- The route depends on the destination address of the packet. -/
theorem routeOf (same : SameUpToLeftovers router router') {packet packet' : Packet}
    (daddr : get32 packet.payload ipDaddr = get32 packet'.payload ipDaddr) :
    router.routeOf packet = router'.routeOf packet' := by
  rw [RouterState.routeOf, RouterState.routeOf, daddr, same.rtable, same.rtableSize]

/-! ## The IPv4 branch -/

/-- Queueing a packet changes the queue and the receive buffer. -/
theorem queuedState (same : SameUpToLeftovers router router') (host : Host)
    (packets : SamePacket (foundPacket router) (foundPacket router')) :
    SameUpToLeftovers (queuedState host router) (Router.queuedState host router') where
  rtable := same.rtable
  rtableSize := same.rtableSize
  arpTable := same.arpTable
  arpTableLen := same.arpTableLen
  q := congrArg (fun q => q ++ [PacketPtr.receiveBuffer]) same.q
  buffer := by
    have stored (router : RouterState) : (Router.queuedState host router).m = foundPacket router := by
      simp [Router.queuedState, RouterState.m, RouterState.store]
    rw [stored, stored]
    exact packets

/-- An IPv4 packet with all its headers is handled alike. -/
theorem handleIpv4 (same : SameUpToLeftovers router router') (host : Host)
    (whole : 42 ≤ router.m.len) :
    SameOutcome (handleIpv4 host router) (Router.handleIpv4 host router') := by
  have agree := same.buffer.payload
  have daddr : get32 router.m.payload ipDaddr = get32 router'.m.payload ipDaddr :=
    agree.get32 ipDaddr (Nat.le_trans (by decide) whole)
  have route : router.route = router'.route := same.routeOf daddr
  have checked : get16 (setIpCheck router.m.payload) ipCheck =
      get16 (setIpCheck router'.m.payload) ipCheck :=
    (agree.setIpCheck (Nat.le_trans (by decide) whole)).get16 ipCheck
      (Nat.le_trans (by decide) whole)
  have echo : IsEchoRequest host router ↔ IsEchoRequest host router' := by
    rw [IsEchoRequest, IsEchoRequest, daddr, same.buffer.interface,
      agree.get8 ipProtocol (Nat.le_trans (by decide) whole),
      agree.get8 icmpType (Nat.le_trans (by decide) whole)]
  have unroutable : Unroutable router ↔ Unroutable router' := by
    rw [Unroutable, Unroutable, daddr, same.rtable, same.rtableSize]
  have expired : Expired router ↔ Expired router' := by
    rw [Expired, Expired, agree.get8 ipTtl (Nat.le_trans (by decide) whole)]
  have matching : CheckMatches router ↔ CheckMatches router' := by
    rw [CheckMatches, CheckMatches, checked,
      agree.get16 ipCheck (Nat.le_trans (by decide) whole)]
  have search : router.search = router'.search := by
    rw [RouterState.search, RouterState.search, RouterState.nextHop, RouterState.nextHop, route,
      same.arpTable, same.arpTableLen]
  have forwarded := agree.forwardedPayload (Nat.le_trans (by decide) whole)
  rw [handleIpv4_eq, handleIpv4_eq, search, route, ← same.buffer.interface, same.arpTable]
  refine .ite echo (fun _ => ?echo) fun _ => .ite unroutable (fun _ => ?unreachable) fun _ =>
    .ite expired (fun _ => ?expired) fun _ => .ite matching (fun _ => ?matching) fun _ => ?dropped
  case echo => exact same.sendBuffer (same.buffer.setPayload (agree.echoReply whole)) _
  case unreachable =>
    exact same.sendBuffer (same.buffer.edit (agree.destinationUnreachable whole) whole) _
  case expired =>
    exact same.sendBuffer (same.buffer.edit (agree.timeExceeded whole) whole) _
  case matching =>
    refine .ite Iff.rfl (fun _ => ?missed) fun _ => ?found
    case missed =>
      rw [forwarded.get etherDhost (Nat.le_trans (by decide) whole)]
      exact same.sendBuffer (same.buffer.setPayload ((forwarded.set _ _).set _ _)) _
    case found =>
      have request : SamePacket (arpRequest host router'.route (foundPacket router))
          (arpRequest host router'.route (foundPacket router')) :=
        same.buffer.edit (AgreeBelow.arpRequest forwarded host _) whole
      exact ⟨congrArg (fun emission => [emission]) (request.sendPacket _),
        same.queuedState host (same.buffer.setPayload forwarded)⟩
  case dropped =>
    exact ⟨rfl, same.store (same.buffer.setPayload
      (agree.setIpCheck (Nat.le_trans (by decide) whole)))⟩

/-! ## The ARP branch -/

/-- The sender of an ARP reply is learned alike. -/
theorem learn (same : SameUpToLeftovers router router') (whole : 32 ≤ router.m.len) :
    SameUpToLeftovers (learn router) (Router.learn router') := by
  have sender : arpSender router = arpSender router' := by
    rw [arpSender, arpSender, same.buffer.payload.get arpSpa whole,
      same.buffer.payload.get arpSha (Nat.le_trans (by decide) whole)]
  have buffer : SamePacket (Router.learn router).m (Router.learn router').m := by
    rw [RouterState.m, RouterState.m, learn_packets, learn_packets]
    exact same.buffer
  refine ⟨?_, ?_, ?_, ?_, ?_, buffer⟩
  all_goals
    rw [learn_eq, learn_eq, ← sender, ← same.arpTable, ← same.arpTableLen]
    split
  all_goals first
    | rfl
    | exact same.rtable
    | exact same.rtableSize
    | exact same.arpTable
    | exact same.arpTableLen
    | exact same.q

end SameUpToLeftovers

/-- Packets that look the same are sent again the same way. -/
theorem SamePacket.resend {packet packet' : Packet} (same : SamePacket packet packet')
    (arpTable : Cells ArpEntry) (nextHop : Vector UInt8 4) (n : Nat) (i : Int) :
    (resend arpTable nextHop n i packet).2 = (Router.resend arpTable nextHop n i packet').2 ∧
      SamePacket (Router.resend arpTable nextHop n i packet).1
        (Router.resend arpTable nextHop n i packet').1 := by
  induction n generalizing i packet packet' with
  | zero => exact ⟨rfl, same⟩
  | succ n ih =>
      unfold Router.resend
      split
      case isTrue =>
        have rewritten := same.setPayload (same.payload.set etherDhost (arpTable i).mac)
        obtain ⟨emitted, left⟩ := ih rewritten (i + 1)
        refine ⟨?_, left⟩
        dsimp only
        rw [emitted, rewritten.sendPacket, same.interface]
      case isFalse => exact ih same (i + 1)

namespace SameUpToLeftovers

variable {router router' : RouterState}

/-- The destination address decides about the route of a waiting packet. -/
theorem flushPacket (same : SameUpToLeftovers router router') (whole : 34 ≤ router.m.len) :
    SameOutcome (flushPacket router .receiveBuffer) (Router.flushPacket router' .receiveBuffer) := by
  have route := same.routeOf (same.buffer.payload.get32 ipDaddr whole)
  have sent := same.buffer.resend router'.arpTable
    (bytes32 (router'.routeOf router'.m).nextHop) router'.arpTableLen 0
  have nextHop : bytes32 (router.routeOf router.m).nextHop =
      bytes32 (router'.routeOf router'.m).nextHop := by rw [route]
  have flushed (router : RouterState) : Router.flushPacket router .receiveBuffer =
      (router.store .receiveBuffer (resend router.arpTable
        (bytes32 (router.routeOf router.m).nextHop) router.arpTableLen 0 router.m).1,
        (resend router.arpTable (bytes32 (router.routeOf router.m).nextHop) router.arpTableLen 0
          router.m).2) := rfl
  rw [flushed, flushed, nextHop, same.arpTable, same.arpTableLen]
  exact ⟨sent.1, same.store sent.2⟩

/-- Waiting packets are sent alike. -/
theorem drain (same : SameUpToLeftovers router router') (whole : 34 ≤ router.m.len)
    {qAux ptrs : List PacketPtr} (aliased : ∀ ptr ∈ ptrs, ptr = .receiveBuffer) :
    SameUpToLeftovers (drain router qAux ptrs).1 (Router.drain router' qAux ptrs).1 ∧
      (Router.drain router qAux ptrs).2 = (Router.drain router' qAux ptrs).2 := by
  induction ptrs generalizing router router' qAux with
  | nil => exact ⟨same, rfl⟩
  | cons ptr rest ih =>
      obtain rfl := aliased ptr List.mem_cons_self
      have first := same.flushPacket whole
      have still : 34 ≤ (Router.flushPacket router .receiveBuffer).1.m.len := by
        rw [(flushPacket_m router).len]
        exact whole
      obtain ⟨state, drained⟩ := @ih _ _ first.state still (qAux ++ [.receiveBuffer])
        fun ptr member => aliased ptr (List.mem_cons_of_mem _ member)
      refine ⟨state, ?_⟩
      simp only [Router.drain]
      rw [drained, first.emitted]

/-- The flush reads the destination address of what is in the receive buffer. -/
theorem flush (same : SameUpToLeftovers router router') (whole : 34 ≤ router.m.len)
    (aliased : Aliased router) : SameOutcome (flush router) (Router.flush router') := by
  obtain ⟨state, drained⟩ := @drain _ _ same whole [] router.q aliased
  have emitted : (Router.flush router).2 = (Router.flush router').2 := by
    simp only [Router.flush]
    rw [drained, same.q]
  refine ⟨emitted, ⟨?_, ?_, ?_, ?_, ?_, ?_⟩⟩
  all_goals rw [Router.flush, Router.flush, ← same.q]
  · exact state.rtable
  · exact state.rtableSize
  · exact state.arpTable
  · exact state.arpTableLen
  · rw [drained]
  · exact state.buffer

end SameUpToLeftovers

/-! ## Frames that are as long as their handler expects -/

/-- A 16-bit field by its two bytes. -/
theorem get16_eq_iff {payload : ByteBuffer} {field : Field 2} {value : BitVec 16}
    {first second : UInt8} (bytes : (bytes16 value).toList = [first, second]) :
    get16 payload field = value ↔
      payload field.offset = first ∧ payload (field.offset + 1) = second := by
  have stored : (field.get payload).toList = [payload field.offset, payload (field.offset + 1)] :=
    (slice_eq_read payload field.offset 2).symm
  have words : get16 payload field = value ↔ (field.get payload).toList = [first, second] := by
    rw [← bytes, get_eq_bytes16, Vector.toList_inj]
    exact ⟨congrArg bytes16, fun same => by simpa using congrArg word16 same⟩
  rw [words, stored]
  simp

/-- A frame whose handler finds in it everything it reads or sends: the type is
there or already excluded by its first byte, an IPv4 packet and an ARP request
have 42 bytes, an ARP reply has the 34 that hold its sender and the bytes the
flush takes for a destination address. -/
structure Complete (bytes : List UInt8) : Prop where
  framed : 13 ≤ bytes.length
  typed : bytes.length = 13 → bytes[12]? ≠ some 0x08
  ipv4 : (bytes.drop etherType.offset).take 2 = [0x08, 0x00] → 42 ≤ bytes.length
  operation : (bytes.drop etherType.offset).take 2 = [0x08, 0x06] →
    21 ≤ bytes.length ∧ (bytes.length = 21 → bytes[20]? ≠ some 0)
  request : (bytes.drop etherType.offset).take 2 = [0x08, 0x06] →
    (bytes.drop arpOp.offset).take 2 = [0, 1] → 42 ≤ bytes.length
  reply : (bytes.drop etherType.offset).take 2 = [0x08, 0x06] →
    (bytes.drop arpOp.offset).take 2 = [0, 2] → 34 ≤ bytes.length

/-- The bytes of a packet are those of its payload. -/
theorem Packet.getElem?_bytes {packet : Packet} {i : Nat} (bound : i < packet.len) :
    packet.bytes[i]? = some (packet.payload i) := by
  rw [List.getElem?_eq_getElem (by rw [Packet.length_bytes]; exact bound)]
  exact congrArg some (getElem_contents _ _ _ _)

/-- The type or the operation of a packet as bytes of the frame. -/
theorem take_drop_eq_iff {packet : Packet} {field : Field 2} {value : BitVec 16}
    {first second : UInt8} (bytes : (bytes16 value).toList = [first, second])
    (fits : field.offset + 2 ≤ packet.len) :
    (packet.bytes.drop field.offset).take 2 = [first, second] ↔
      get16 packet.payload field = value := by
  rw [take_drop_bytes fits, ← bytes, get_eq_bytes16, Vector.toList_inj]
  exact ⟨fun same => by simpa using congrArg word16 same, congrArg bytes16⟩

namespace SameUpToLeftovers

variable {router router' : RouterState}

/-- A complete ARP packet is handled alike. -/
theorem handleArp (same : SameUpToLeftovers router router') (host : Host) (aliased : Aliased router)
    (arp : (router.m.bytes.drop etherType.offset).take 2 = [0x08, 0x06])
    (complete : Complete router.m.bytes) :
    SameOutcome (handleArp host router) (Router.handleArp host router') := by
  have length := router.m.length_bytes
  obtain ⟨long, excluded⟩ := complete.operation arp
  rcases Nat.eq_or_lt_of_le long with short | whole
  · -- the operation is cut, but its first byte is not zero
    have first : router.m.payload arpOp.offset ≠ 0 := fun zero =>
      excluded short.symm (by rw [Packet.getElem?_bytes (by omega)]; exact congrArg some zero)
    have first' : router'.m.payload arpOp.offset ≠ 0 := by
      rwa [← same.buffer.payload _ (by rw [← length, ← short]; decide)]
    have silent {router : RouterState} (first : router.m.payload arpOp.offset ≠ 0) :
        Router.handleArp host router = (router, []) := by
      have notRequest : get16 router.m.payload arpOp ≠ htons 1 := fun request =>
        first ((get16_eq_iff rfl).mp request).1
      have notReply : get16 router.m.payload arpOp ≠ htons 2 := fun reply =>
        first ((get16_eq_iff rfl).mp reply).1
      simp only [Router.handleArp]
      rw [if_neg notRequest, if_neg notReply]
    rw [silent first, silent first']
    exact ⟨rfl, same⟩
  · have agree := same.buffer.payload
    have op : get16 router.m.payload arpOp = get16 router'.m.payload arpOp :=
      agree.get16 arpOp (by rw [← length]; exact whole)
    have request := @take_drop_eq_iff router.m arpOp (htons 1) 0 1 rfl
      (by rw [← length]; exact whole)
    have reply := @take_drop_eq_iff router.m arpOp (htons 2) 0 2 rfl
      (by rw [← length]; exact whole)
    simp only [Router.handleArp]
    refine .ite (by rw [op]) (fun isRequest => ?request) fun _ =>
      .ite (by rw [op]) (fun isReply => ?reply) fun _ => ⟨rfl, same⟩
    case request =>
      have all : 42 ≤ router.m.len := length ▸ complete.request arp (request.mpr isRequest)
      refine .ite ?_ (fun _ => ?_) fun _ => ⟨rfl, same⟩
      · rw [agree.get32 arpTpa all, same.buffer.interface]
      · have replies : SamePacket (arpReply host router.m) (arpReply host router'.m) :=
          ⟨same.buffer.len, same.buffer.interface, agree.arpReply all host same.buffer.interface⟩
        rw [← same.buffer.interface]
        exact same.sendBuffer replies _
    case reply =>
      have all : 34 ≤ router.m.len := length ▸ complete.reply arp (reply.mpr isReply)
      have learned : (Router.learn router).m = router.m := congrFun (learn_packets router) _
      refine (same.learn (Nat.le_trans (by decide) all)).flush (by rw [learned]; exact all)
        fun ptr member => aliased ptr (learn_q router ▸ member)

/-- A complete frame is handled alike whatever is behind it in the buffer. -/
theorem handle (same : SameUpToLeftovers router router') (host : Host) (aliased : Aliased router)
    (complete : Complete router.m.bytes) :
    SameOutcome (handle host router) (Router.handle host router') := by
  have length := router.m.length_bytes
  rcases Nat.eq_or_lt_of_le complete.framed with short | whole
  · -- the type is cut, but its first byte is neither of IPv4 nor of ARP
    have first : router.m.payload etherType.offset ≠ 0x08 := fun eight =>
      complete.typed short.symm
        (by rw [Packet.getElem?_bytes (by omega)]; exact congrArg some eight)
    have first' : router'.m.payload etherType.offset ≠ 0x08 := by
      rwa [← same.buffer.payload _ (by rw [← length, ← short]; decide)]
    have silent {router : RouterState} (first : router.m.payload etherType.offset ≠ 0x08) :
        Router.handle host router = (router, []) := by
      have notIpv4 : get16 router.m.payload etherType ≠ htons 0x0800 := fun ipv4 =>
        first ((get16_eq_iff rfl).mp ipv4).1
      have notArp : get16 router.m.payload etherType ≠ htons 0x0806 := fun arp =>
        first ((get16_eq_iff rfl).mp arp).1
      rw [Router.handle, if_neg notIpv4, if_neg notArp]
    rw [silent first, silent first']
    exact ⟨rfl, same⟩
  · have type : get16 router.m.payload etherType = get16 router'.m.payload etherType :=
      same.buffer.payload.get16 etherType (by rw [← length]; exact whole)
    have ipv4 := @take_drop_eq_iff router.m etherType (htons 0x0800) 0x08 0x00 rfl
      (by rw [← length]; exact whole)
    have arp := @take_drop_eq_iff router.m etherType (htons 0x0806) 0x08 0x06 rfl
      (by rw [← length]; exact whole)
    rw [Router.handle, Router.handle]
    exact .ite (by rw [type])
      (fun isIpv4 => same.handleIpv4 host (length ▸ complete.ipv4 (ipv4.mpr isIpv4))) fun _ =>
      .ite (by rw [type]) (fun isArp => same.handleArp host aliased (arp.mpr isArp) complete)
        fun _ => ⟨rfl, same⟩

end SameUpToLeftovers

end CommunicationProtocols.Router
