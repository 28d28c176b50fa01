import CommunicationProtocols.Router.ArpTable
import CommunicationProtocols.Router.InternetChecksum

/-!
# Frames that rebuild the buffer

A frame is handled in the receive buffer, so what it leaves there depends on the
way it takes. Every way edits a few bytes in place, and its edits can be undone:
whether a frame turns into a given packet can be read off the frame, the packet
and the tables, before anything is handled.
-/

namespace CommunicationProtocols.Router

open Library Library.ByteBuffer

/-- The buffers agree below a length, but for the bytes at the given offsets. -/
def SameExcept (len : Nat) (except : List Nat) (payload payload' : ByteBuffer) : Prop :=
  ∀ i, i < len → i ∉ except → payload i = payload' i

instance (len : Nat) (except : List Nat) (payload payload' : ByteBuffer) :
    Decidable (SameExcept len except payload payload') :=
  inferInstanceAs (Decidable (∀ i, i < len → i ∉ except → payload i = payload' i))

/-- What of the header checksum lies in the packet is what the code computes. -/
def HasIpCheck (len : Nat) (payload : ByteBuffer) : Prop :=
  SameExcept len [] (setIpCheck payload) payload

/-- What of the ICMP checksum lies in the packet is what the code computes. -/
def HasIcmpChecksum (len : Nat) (payload : ByteBuffer) : Prop :=
  SameExcept len [] (setIcmpChecksum payload) payload

instance (len : Nat) (payload : ByteBuffer) : Decidable (HasIpCheck len payload) :=
  inferInstanceAs (Decidable (SameExcept _ _ _ _))

/-- The new Ethernet addresses of a packet whose next hop was not found. -/
def readdress (mac : MacAddress) (payload : ByteBuffer) : ByteBuffer :=
  copyMac (etherShost.set payload (etherDhost.get payload)) mac

/-! ## What each way asks of the frame -/

section

variable (len : Nat) (received waiting : ByteBuffer)

/-- The received packet is the waiting one with one hop more to live, and the
waiting one has its checksum. -/
structure HopBefore : Prop where
  same : SameExcept len [22, 24, 25] received waiting
  ttl : 22 < len → get8 received ipTtl = get8 waiting ipTtl + 1
  check : HasIpCheck len waiting

/-- The received packet is the waiting one with another header checksum. -/
structure DamagedCopy : Prop where
  same : SameExcept len [24, 25] received waiting
  check : HasIpCheck len waiting

/-- The waiting packet answers the received echo request. -/
structure EchoAnswer : Prop where
  same : SameExcept len [22, 24, 25, 34, 36, 37] (swapAddrs (swapMacs received)) waiting
  ttl : 22 < len → get8 waiting ipTtl = 64
  type : 34 < len → get8 waiting icmpType = 0
  check : ∀ i, i < len → i ∈ [24, 25] →
    setIpCheck (set8 (swapAddrs received) ipTtl 64) i = waiting i
  checksum : HasIcmpChecksum len waiting

/-- What both ICMP errors have in their header. -/
structure ErrorHeader : Prop where
  totLen : get16 waiting ipTotLen = icmpErrorTotLen
  ttl : get8 waiting ipTtl = 64
  protocol : get8 waiting ipProtocol = 1
  checksum : HasIcmpChecksum icmpErrorLen waiting

/-- The waiting packet reports that the received one has no route. -/
structure UnreachableAnswer : Prop extends ErrorHeader waiting where
  same : SameExcept icmpErrorLen [16, 17, 22, 23, 24, 25, 34, 35, 36, 37]
    (swapAddrs (swapMacs received)) waiting
  type : get8 waiting icmpType = 3
  code : get8 waiting icmpCode = 0
  check : HasIpCheck icmpErrorLen (swapAddrs waiting)

/-- The waiting packet reports that the received one has expired. -/
structure ExpiredAnswer : Prop extends ErrorHeader waiting where
  same : SameExcept icmpErrorLen [16, 17, 22, 23, 24, 25, 34, 36, 37]
    (swapAddrs (swapMacs received)) waiting
  type : get8 waiting icmpType = 11
  check : HasIpCheck icmpErrorLen waiting

end

/-- The IPv4 packet in the receive buffer is, for the way it will take, what the
waiting packet was or what the waiting packet answers. -/
def Turns (host : Host) (received : RouterState) (waiting : Packet) : Prop :=
  if IsEchoRequest host received then
    received.m.len = waiting.len ∧
      EchoAnswer waiting.len received.m.payload waiting.payload
  else if Unroutable received then
    waiting.len = icmpErrorLen ∧ UnreachableAnswer received.m.payload waiting.payload
  else if Expired received then
    waiting.len = icmpErrorLen ∧ ExpiredAnswer received.m.payload waiting.payload
  else if CheckMatches received then
    received.m.len = waiting.len ∧
      if received.search.1 = false then
        HopBefore waiting.len (readdress (received.arpTable (-1)).mac received.m.payload)
          waiting.payload
      else
        HopBefore waiting.len received.m.payload waiting.payload
  else
    received.m.len = waiting.len ∧
      DamagedCopy waiting.len received.m.payload waiting.payload

/-! ## Edits and agreement -/

section

variable {len : Nat} {except : List Nat} {payload payload' waiting : ByteBuffer} {i : Nat}

/-- Equal contents agree without exceptions. -/
theorem sameExcept_contents_iff :
    payload.contents len = waiting.contents len ↔ SameExcept len [] payload waiting := by
  rw [contents_eq_iff]
  exact ⟨fun same i below _ => same i below, fun same i below => same i below (by simp)⟩

/-- The order of the exceptions does not matter. -/
theorem sameExcept_congr {except' : List Nat} (same : ∀ i, i ∈ except ↔ i ∈ except') :
    SameExcept len except payload waiting ↔ SameExcept len except' payload waiting :=
  forall_congr' fun i => imp_congr_right fun _ => imp_congr_left (not_congr (same i))

/-- Writing one byte settles that byte. -/
theorem sameExcept_set8_iff {field : Field 1} {value : UInt8} (counts : field.offset ∉ except) :
    SameExcept len except (set8 payload field value) waiting ↔
      SameExcept len (field.offset :: except) payload waiting ∧
        (field.offset < len → get8 waiting field = value) := by
  constructor
  · intro same
    refine ⟨fun i below kept => ?_, fun below => ?_⟩
    · rw [List.mem_cons, not_or] at kept
      rw [← same i below kept.2, set8_apply_other kept.1]
    · rw [get8_eq, ← same _ below counts, set8_apply_same]
  · rintro ⟨same, written⟩ i below kept
    by_cases here : i = field.offset
    · subst here
      rw [set8_apply_same, ← written below, get8_eq]
    · rw [set8_apply_other here]
      exact same i below (by simp [here, kept])

/-- What is written to a field does not depend on the bytes around it. -/
theorem set16_apply_inside (payload payload' : ByteBuffer) (field : Field 2) (value : BitVec 16)
    (inside : i = field.offset ∨ i = field.offset + 1) :
    set16 payload field value i = set16 payload' field value i := by
  rcases inside with rfl | rfl
  · exact (write_apply_inside payload field.offset (bytes16 value) 0 (by decide)).trans
      (write_apply_inside payload' field.offset (bytes16 value) 0 (by decide)).symm
  · exact (write_apply_inside payload field.offset (bytes16 value) 1 (by decide)).trans
      (write_apply_inside payload' field.offset (bytes16 value) 1 (by decide)).symm

/-- Writing back what a field holds changes nothing. -/
theorem set16_get16 (payload : ByteBuffer) (field : Field 2) :
    set16 payload field (get16 payload field) = payload := by
  funext i
  by_cases inside : field.offset ≤ i ∧ i < field.offset + 2
  · obtain ⟨k, rfl⟩ := Nat.exists_eq_add_of_le inside.1
    rw [set16, ← get_eq_bytes16]
    exact (write_apply_inside payload field.offset (field.get payload) k (by omega)).trans
      (getElem_read payload field.offset 2 k (by omega))
  · exact set16_apply_outside (by omega)

/-- Writing two bytes of the packet settles those bytes. -/
theorem sameExcept_set16_iff {field : Field 2} {value : BitVec 16}
    (inPacket : field.offset + 1 < len) (counts : field.offset ∉ except)
    (counts' : field.offset + 1 ∉ except) :
    SameExcept len except (set16 payload field value) waiting ↔
      SameExcept len (field.offset :: (field.offset + 1) :: except) payload waiting ∧
        get16 waiting field = value := by
  constructor
  · intro same
    refine ⟨fun i below kept => ?_, ?_⟩
    · simp only [List.mem_cons, not_or] at kept
      rw [← same i below kept.2.2, set16_apply_outside (by omega)]
    · rw [← get16_set16 payload field value]
      refine get16_congr fun i low high => (same i (by omega) ?_).symm
      obtain rfl | rfl : i = field.offset ∨ i = field.offset + 1 := by omega
      · exact counts
      · exact counts'
  · rintro ⟨same, rfl⟩ i below kept
    by_cases inside : i = field.offset ∨ i = field.offset + 1
    · rw [set16_apply_inside payload waiting field _ inside, set16_get16]
    · rw [set16_apply_outside (by omega)]
      exact same i below (by simp_all)

/-! ## Checksums and agreement -/

/-- The header checksum is that of the header with the field zeroed. -/
theorem setIpCheck_check (payload : ByteBuffer) :
    get16 (setIpCheck payload) ipCheck =
      ipChecksum (set16 payload ipCheck 0) sizeofEtherHeader sizeofIphdr :=
  get16_set16 _ _ _

/-- A zeroed field hides what was in it. -/
theorem zeroed_congr {field : Field 2} {start size : Nat}
    (same : ∀ i, start ≤ i → i < start + size → i ≠ field.offset → i ≠ field.offset + 1 →
      payload i = payload' i) :
    (set16 payload field 0).slice start size = (set16 payload' field 0).slice start size := by
  apply slice_congr
  intro i low high
  by_cases inside : i = field.offset ∨ i = field.offset + 1
  · exact set16_apply_inside payload payload' field 0 inside
  · rw [set16_apply_outside (by omega), set16_apply_outside (by omega)]
    exact same i low high (by omega) (by omega)

/-- A zeroed checksum field hides what was in it. -/
theorem zeroedHeader_congr
    (same : ∀ i, 14 ≤ i → i < 34 → i ≠ 24 → i ≠ 25 → payload i = payload' i) :
    ipChecksum (set16 payload ipCheck 0) sizeofEtherHeader sizeofIphdr =
      ipChecksum (set16 payload' ipCheck 0) sizeofEtherHeader sizeofIphdr :=
  ipChecksum_congr (by decide) (zeroed_congr same)

/-- The ICMP checksum depends on its own header, without the field. -/
theorem zeroedIcmp_congr
    (same : ∀ i, 34 ≤ i → i < 42 → i ≠ 36 → i ≠ 37 → payload i = payload' i) :
    ipChecksum (set16 payload icmpChecksum 0) (sizeofEtherHeader + sizeofIphdr) sizeofIcmphdr =
      ipChecksum (set16 payload' icmpChecksum 0) (sizeofEtherHeader + sizeofIphdr)
        sizeofIcmphdr :=
  ipChecksum_congr (by decide) (zeroed_congr same)

/-- The checksum of a header is a matter of its other bytes. -/
theorem setIpCheck_apply_congr
    (same : ∀ i, 14 ≤ i → i < 34 → i ≠ 24 → i ≠ 25 → payload i = payload' i)
    (inside : i = 24 ∨ i = 25) : setIpCheck payload i = setIpCheck payload' i := by
  simp only [setIpCheck]
  rw [zeroedHeader_congr same]
  exact set16_apply_inside _ _ ipCheck _ inside

/-- The bytes of a new ICMP checksum depend on its own header, without the field. -/
theorem setIcmpChecksum_apply_congr
    (same : ∀ i, 34 ≤ i → i < 42 → i ≠ 36 → i ≠ 37 → payload i = payload' i)
    (inside : i = 36 ∨ i = 37) : setIcmpChecksum payload i = setIcmpChecksum payload' i := by
  simp only [setIcmpChecksum]
  rw [zeroedIcmp_congr same]
  exact set16_apply_inside _ _ icmpChecksum _ inside

/-- What a header checksum settles are its own two bytes. -/
theorem sameExcept_setIpCheck_split (counts : 24 ∉ except) (counts' : 25 ∉ except) :
    SameExcept len except (setIpCheck payload) waiting ↔
      SameExcept len (24 :: 25 :: except) payload waiting ∧
        ∀ i, i < len → i ∈ [24, 25] → setIpCheck payload i = waiting i := by
  constructor
  · intro same
    refine ⟨fun i below kept => ?_, fun i below inside => same i below ?_⟩
    · simp only [List.mem_cons, not_or] at kept
      rw [← same i below kept.2.2, setIpCheck_apply_outside (by omega)]
    · rcases List.mem_pair.mp inside with rfl | rfl
      · exact counts
      · exact counts'
  · rintro ⟨same, written⟩ i below kept
    by_cases inside : i = 24 ∨ i = 25
    · exact written i below (by simp [inside])
    · rw [setIpCheck_apply_outside (by omega)]
      exact same i below (by simp only [List.mem_cons]; tauto)

/-- Once the rest of the header agrees, the checksum that was written agrees if
the waiting packet has its own. -/
theorem sameExcept_setIpCheck_iff (counts : ∀ i, i < 34 → i ∉ except)
    (behind : ∀ i, 26 ≤ i → i < 34 → len ≤ i → payload i = waiting i) :
    SameExcept len except (setIpCheck payload) waiting ↔
      SameExcept len (24 :: 25 :: except) payload waiting ∧ HasIpCheck len waiting := by
  rw [sameExcept_setIpCheck_split (counts 24 (by decide)) (counts 25 (by decide))]
  refine and_congr_right fun same => ?_
  have header (i : Nat) (below : i < len) (inside : i = 24 ∨ i = 25) :
      setIpCheck payload i = setIpCheck waiting i := by
    refine setIpCheck_apply_congr (fun j low high notCheck notCheck' => ?_) inside
    by_cases inPacket : j < len
    · exact same j inPacket (by simp [notCheck, notCheck', counts j high])
    · exact behind j (by omega) high (by omega)
  constructor
  · intro written i below _
    by_cases inside : i = 24 ∨ i = 25
    · rw [← header i below inside]
      exact written i below (by simp [inside])
    · exact setIpCheck_apply_outside (by omega)
  · intro checked i below member
    have inside : i = 24 ∨ i = 25 := by simpa using member
    rw [header i below inside]
    exact checked i below (by simp)

/-- A new ICMP checksum settles its two bytes, if the waiting packet has the right one. -/
theorem sameExcept_setIcmpChecksum_iff
    (behind : ∀ i, 38 ≤ i → i < 42 → len ≤ i → payload i = waiting i) :
    SameExcept len [] (setIcmpChecksum payload) waiting ↔
      SameExcept len [36, 37] payload waiting ∧ HasIcmpChecksum len waiting := by
  have message (same : SameExcept len [36, 37] payload waiting) (i : Nat) (below : i < len)
      (inside : i = 36 ∨ i = 37) : setIcmpChecksum payload i = setIcmpChecksum waiting i := by
    refine setIcmpChecksum_apply_congr (fun j low high notSum notSum' => ?_) inside
    by_cases inPacket : j < len
    · exact same j inPacket (by simp [notSum, notSum'])
    · exact behind j (by omega) high (by omega)
  constructor
  · intro written
    have same : SameExcept len [36, 37] payload waiting := by
      intro i below kept
      simp only [List.mem_cons, List.not_mem_nil, or_false, not_or] at kept
      rw [← written i below (by simp), setIcmpChecksum_apply_outside (by omega)]
    refine ⟨same, fun i below _ => ?_⟩
    by_cases inside : i = 36 ∨ i = 37
    · rw [← message same i below inside]
      exact written i below (by simp)
    · exact setIcmpChecksum_apply_outside (by omega)
  · rintro ⟨same, checked⟩ i below _
    by_cases inside : i = 36 ∨ i = 37
    · rw [message same i below inside]
      exact checked i below (by simp)
    · rw [setIcmpChecksum_apply_outside (by omega)]
      exact same i below (by simpa using inside)

/-! ## Exchanges and agreement -/

/-- The bytes after swapping the Ethernet addresses. -/
theorem swapMacs_apply (payload : ByteBuffer) (i : Nat) :
    swapMacs payload i =
      if i < 6 then payload (i + 6) else if i < 12 then payload (i - 6) else payload i := by
  simp only [swapMacs]
  rcases Nat.lt_or_ge i 6 with low | high
  · have written := write_apply_inside payload 0 (etherShost.get payload) i low
    rw [if_pos low, set_apply_outside (by simp only [etherShost]; omega)]
    simpa [Field.set, etherDhost, Field.get, etherShost, Nat.add_comm] using written
  · rw [if_neg (by omega)]
    rcases Nat.lt_or_ge i 12 with inShost | behind
    · have written := write_apply_inside (etherDhost.set payload (etherShost.get payload)) 6
        (etherDhost.get payload) (i - 6) (by omega)
      rw [if_pos inShost]
      rw [Nat.add_sub_cancel' high] at written
      simpa [Field.set, etherDhost, Field.get, etherShost] using written
    · rw [if_neg (by omega), set_apply_outside (by simp only [etherShost]; omega),
        set_apply_outside (by simp only [etherDhost]; omega)]

/-- The bytes after swapping the IP addresses. -/
theorem swapAddrs_apply (payload : ByteBuffer) (i : Nat) :
    swapAddrs payload i =
      if 26 ≤ i ∧ i < 30 then payload (i + 4)
      else if 30 ≤ i ∧ i < 34 then payload (i - 4) else payload i := by
  simp only [swapAddrs, set32, get32, bytes32_word32]
  by_cases source : 26 ≤ i ∧ i < 30
  · have written := write_apply_inside (ipDaddr.set payload (ipSaddr.get payload)) 26
      (ipDaddr.get payload) (i - 26) (by omega)
    rw [Nat.add_sub_cancel' source.1] at written
    rw [if_pos source]
    refine written.trans ?_
    simp only [Field.get, getElem_read, ipDaddr]
    congr 1
    omega
  · rw [if_neg source, set_apply_outside (by simp only [ipSaddr]; omega)]
    by_cases destination : 30 ≤ i ∧ i < 34
    · have written := write_apply_inside payload 30 (ipSaddr.get payload) (i - 30) (by omega)
      rw [Nat.add_sub_cancel' destination.1] at written
      rw [if_pos destination]
      refine written.trans ?_
      simp only [Field.get, getElem_read, ipSaddr]
      congr 1
      omega
    · rw [if_neg destination]
      exact set_apply_outside (by simp only [ipDaddr]; omega)

@[simp] theorem swapAddrs_swapAddrs (payload : ByteBuffer) :
    swapAddrs (swapAddrs payload) = payload := by
  funext i
  rw [swapAddrs_apply]
  split
  case isTrue source =>
    rw [swapAddrs_apply, if_neg (by omega), if_pos (by omega)]
    congr 1
  case isFalse =>
    split
    case isTrue destination =>
      rw [swapAddrs_apply, if_pos (by omega)]
      congr 1
      omega
    case isFalse => exact swapAddrs_apply_outside (by omega)

/-- A byte behind the Ethernet addresses may be written before or after the swap. -/
theorem swapMacs_set8 {field : Field 1} {value : UInt8} (behind : 12 ≤ field.offset) :
    swapMacs (set8 payload field value) = set8 (swapMacs payload) field value := by
  funext i
  by_cases here : i = field.offset
  · subst here
    rw [swapMacs_apply_outside behind, set8_apply_same, set8_apply_same]
  · rw [set8_apply_other here, swapMacs_apply, swapMacs_apply]
    split
    · exact set8_apply_other (by omega)
    · split
      · exact set8_apply_other (by omega)
      · exact set8_apply_other here

/-- A byte outside the IP addresses may be written before or after the swap. -/
theorem swapAddrs_set8 {field : Field 1} {value : UInt8}
    (outside : field.offset < 26 ∨ 34 ≤ field.offset) :
    swapAddrs (set8 payload field value) = set8 (swapAddrs payload) field value := by
  funext i
  by_cases here : i = field.offset
  · subst here
    rw [swapAddrs_apply_outside outside, set8_apply_same, set8_apply_same]
  · rw [set8_apply_other here, swapAddrs_apply, swapAddrs_apply]
    split
    · exact set8_apply_other (by omega)
    · split
      · exact set8_apply_other (by omega)
      · exact set8_apply_other here

/-- A word behind the Ethernet addresses may be written before or after the swap. -/
theorem swapMacs_set16 {field : Field 2} {value : BitVec 16} (behind : 12 ≤ field.offset) :
    swapMacs (set16 payload field value) = set16 (swapMacs payload) field value := by
  funext i
  by_cases inside : i = field.offset ∨ i = field.offset + 1
  · rw [swapMacs_apply_outside (by omega)]
    exact set16_apply_inside _ _ field value inside
  · rw [set16_apply_outside (by omega), swapMacs_apply, swapMacs_apply]
    split
    · exact set16_apply_outside (by omega)
    · split
      · exact set16_apply_outside (by omega)
      · exact set16_apply_outside (by omega)

/-- A word before the IP addresses may be written before or after the swap. -/
theorem swapAddrs_set16 {field : Field 2} {value : BitVec 16} (before : field.offset < 25) :
    swapAddrs (set16 payload field value) = set16 (swapAddrs payload) field value := by
  funext i
  by_cases inside : i = field.offset ∨ i = field.offset + 1
  · rw [swapAddrs_apply_outside (by omega)]
    exact set16_apply_inside _ _ field value inside
  · rw [set16_apply_outside (by omega), swapAddrs_apply, swapAddrs_apply]
    split
    · exact set16_apply_outside (by omega)
    · split
      · exact set16_apply_outside (by omega)
      · exact set16_apply_outside (by omega)

/-- The exchange of the addresses can be undone in the waiting packet instead. -/
theorem sameExcept_swapAddrs_iff (whole : 34 ≤ len)
    (counts : ∀ i, 26 ≤ i → i < 34 → i ∉ except) :
    SameExcept len except (swapAddrs payload) waiting ↔
      SameExcept len except payload (swapAddrs waiting) := by
  have undone {payload waiting : ByteBuffer} (same : SameExcept len except payload waiting) :
      SameExcept len except (swapAddrs payload) (swapAddrs waiting) := by
    intro i below kept
    rw [swapAddrs_apply, swapAddrs_apply]
    split
    case isTrue source => exact same _ (by omega) (counts _ (by omega) (by omega))
    case isFalse =>
      split
      case isTrue destination => exact same _ (by omega) (counts _ (by omega) (by omega))
      case isFalse => exact same i below kept
  constructor
  · intro same
    simpa using undone same
  · intro same
    simpa using undone same

end

/-! ## The ways -/

section

variable {len : Nat} {received waiting : ByteBuffer}

/-- A new time to live leaves the other bytes. -/
theorem set8_ipTtl_apply {value : UInt8} {i : Nat} (payload : ByteBuffer) (other : i ≠ 22) :
    set8 payload ipTtl value i = payload i :=
  set8_apply_other other

/-- A new ICMP type leaves the other bytes. -/
theorem set8_icmpType_apply {value : UInt8} {i : Nat} (payload : ByteBuffer) (other : i ≠ 34) :
    set8 payload icmpType value i = payload i :=
  set8_apply_other other

/-- A new header checksum leaves the other bytes. -/
theorem get8_setIpCheck {field : Field 1} (outside : field.offset < 24 ∨ 26 ≤ field.offset)
    (payload : ByteBuffer) : get8 (setIpCheck payload) field = get8 payload field := by
  rw [get8_eq, get8_eq]
  exact setIpCheck_apply_outside outside

/-- A forwarded packet has turned into the waiting one if it had one hop more. -/
theorem forwardedPayload_turns_iff (behind : ∀ i, 26 ≤ i → len ≤ i → received i = waiting i) :
    SameExcept len [] (forwardedPayload received) waiting ↔ HopBefore len received waiting := by
  have rest (i : Nat) (above : 26 ≤ i) (outside : len ≤ i) :
      set8 (setIpCheck received) ipTtl (get8 (setIpCheck received) ipTtl - 1) i = waiting i := by
    rw [set8_ipTtl_apply _ (by omega), setIpCheck_apply_outside (.inr above)]
    exact behind i above outside
  have checked : SameExcept len [22, 24, 25] (setIpCheck received) waiting ↔
      SameExcept len [22, 24, 25] received waiting := by
    constructor <;> intro same i below kept
    · rw [← same i below kept, setIpCheck_apply_outside]
      simp only [List.mem_cons, List.not_mem_nil, or_false, not_or] at kept
      omega
    · rw [← same i below kept, setIpCheck_apply_outside]
      simp only [List.mem_cons, List.not_mem_nil, or_false, not_or] at kept
      omega
  simp only [forwardedPayload]
  rw [sameExcept_setIpCheck_iff (by simp) fun i above _ => rest i above,
    sameExcept_set8_iff (by decide)]
  have ttl : (22 < len → get8 waiting ipTtl = get8 (setIpCheck received) ipTtl - 1) ↔
      (22 < len → get8 received ipTtl = get8 waiting ipTtl + 1) := by
    rw [get8_setIpCheck (.inl (by decide))]
    refine imp_congr_right fun _ => ⟨fun left => ?_, fun before => ?_⟩
    · rw [left, UInt8.sub_add_cancel]
    · rw [before, UInt8.add_sub_cancel]
  have offset : ipTtl.offset = 22 := rfl
  rw [offset, checked, ttl]
  constructor
  · rintro ⟨⟨same, ttl⟩, check⟩
    exact ⟨same, ttl, check⟩
  · intro turns
    exact ⟨⟨turns.same, turns.ttl⟩, turns.check⟩

/-- With a new header checksum a packet is the waiting one exactly if it was its damaged copy.
-/
theorem damaged_turns_iff (behind : ∀ i, len ≤ i → received i = waiting i) :
    SameExcept len [] (setIpCheck received) waiting ↔ DamagedCopy len received waiting := by
  rw [sameExcept_setIpCheck_iff (by simp) fun i _ _ => behind i]
  constructor
  · rintro ⟨same, check⟩
    exact ⟨same, check⟩
  · intro copy
    exact ⟨copy.same, copy.check⟩

/-- The echo reply to a packet is the waiting one exactly if that answers it. -/
theorem echoReply_turns_iff (behind : ∀ i, len ≤ i → received i = waiting i) :
    SameExcept len [] (echoReply received) waiting ↔ EchoAnswer len received waiting := by
  have exchanged : swapAddrs (swapMacs (set8 (set8 received icmpType 0) ipTtl 64)) =
      set8 (set8 (swapAddrs (swapMacs received)) icmpType 0) ipTtl 64 := by
    rw [swapMacs_set8 (by decide), swapMacs_set8 (by decide), swapAddrs_set8 (.inl (by decide)),
      swapAddrs_set8 (.inr (by decide))]
  have rest (i : Nat) (above : 38 ≤ i) (_ : i < 42) (outside : len ≤ i) :
      setIpCheck (set8 (set8 (swapAddrs (swapMacs received)) icmpType 0) ipTtl 64) i =
        waiting i := by
    rw [setIpCheck_apply_outside (.inr (by omega)), set8_ipTtl_apply _ (by omega),
      set8_icmpType_apply _ (by omega), swapAddrs_apply_outside (.inr (by omega)),
      swapMacs_apply_outside (by omega)]
    exact behind i outside
  have check (i : Nat) (member : i ∈ [24, 25]) :
      setIpCheck (set8 (set8 (swapAddrs (swapMacs received)) icmpType 0) ipTtl 64) i =
        setIpCheck (set8 (swapAddrs received) ipTtl 64) i := by
    refine setIpCheck_apply_congr (fun j low high _ _ => ?_) (by simpa using member)
    by_cases ttl : j = 22
    · subst ttl
      exact (set8_apply_same _ ipTtl 64).trans (set8_apply_same _ ipTtl 64).symm
    · rw [set8_ipTtl_apply _ ttl, set8_icmpType_apply _ (by omega), set8_ipTtl_apply _ ttl,
        swapAddrs_apply, swapAddrs_apply]
      repeat' split
      all_goals exact swapMacs_apply_outside (by omega)
  simp only [echoReply]
  rw [exchanged, sameExcept_setIcmpChecksum_iff rest,
    sameExcept_setIpCheck_split (by decide) (by decide), sameExcept_set8_iff (by decide),
    sameExcept_set8_iff (by decide)]
  have reordered (i : Nat) : i ∈ [34, 22, 24, 25, 36, 37] ↔ i ∈ [22, 24, 25, 34, 36, 37] := by
    simp only [List.mem_cons]
    tauto
  have checks : (∀ i, i < len → i ∈ [24, 25] →
      setIpCheck (set8 (set8 (swapAddrs (swapMacs received)) icmpType 0) ipTtl 64) i =
        waiting i) ↔
      ∀ i, i < len → i ∈ [24, 25] →
        setIpCheck (set8 (swapAddrs received) ipTtl 64) i = waiting i :=
    forall_congr' fun i => imp_congr_right fun _ => forall_congr' fun member => by
      rw [check i member]
  have offsets : ipTtl.offset = 22 ∧ icmpType.offset = 34 := ⟨rfl, rfl⟩
  rw [offsets.1, offsets.2, sameExcept_congr reordered, checks]
  constructor
  · rintro ⟨⟨⟨⟨same, type⟩, ttl⟩, check⟩, checksum⟩
    exact ⟨same, ttl, type, check, checksum⟩
  · intro answer
    exact ⟨⟨⟨⟨answer.same, answer.type⟩, answer.ttl⟩, answer.check⟩, answer.checksum⟩

/-- Swapping the IP addresses leaves what is before them. -/
theorem get8_swapAddrs {field : Field 1} (before : field.offset < 26) (payload : ByteBuffer) :
    get8 (swapAddrs payload) field = get8 payload field := by
  rw [get8_eq, get8_eq]
  exact swapAddrs_apply_outside (.inl before)

/-- Swapping the IP addresses leaves the total length. -/
theorem ipTotLen_swapAddrs (payload : ByteBuffer) :
    get16 (swapAddrs payload) ipTotLen = get16 payload ipTotLen :=
  get16_congr fun i _ high => swapAddrs_apply_outside (.inl (by
    simp only [ipTotLen] at high
    omega))

/-- A destination unreachable is the waiting packet exactly if that answers so. -/
theorem destinationUnreachable_turns_iff :
    SameExcept icmpErrorLen [] (destinationUnreachable received) waiting ↔
      UnreachableAnswer received waiting := by
  have size : icmpErrorLen = 42 := rfl
  have kept (i : Nat) (low : 26 ≤ i) (high : i < 34) :
      i ∉ [icmpType.offset, icmpCode.offset, 36, 37] := by
    simp only [List.mem_cons, List.not_mem_nil, or_false, icmpType, icmpCode]
    omega
  have kept' (i : Nat) (low : 26 ≤ i) (high : i < 34) :
      i ∉ [ipTotLen.offset, ipTotLen.offset + 1, ipTtl.offset, ipProtocol.offset, 24, 25,
        icmpType.offset, icmpCode.offset, 36, 37] := by
    simp only [List.mem_cons, List.not_mem_nil, or_false, ipTotLen, ipTtl, ipProtocol, icmpType,
      icmpCode]
    omega
  simp only [destinationUnreachable]
  rw [sameExcept_setIcmpChecksum_iff (fun i _ high outside => by omega),
    sameExcept_set8_iff (by decide), sameExcept_set8_iff (by decide),
    sameExcept_swapAddrs_iff (by decide) kept,
    sameExcept_setIpCheck_iff (fun i high member => by
      simp only [List.mem_cons, List.not_mem_nil, or_false, icmpType, icmpCode] at member
      omega) (fun i _ high outside => by omega),
    sameExcept_set8_iff (by decide), sameExcept_set8_iff (by decide),
    sameExcept_set16_iff (by decide) (by decide) (by decide), ipTotLen_swapAddrs,
    get8_swapAddrs (by decide), get8_swapAddrs (by decide),
    ← sameExcept_swapAddrs_iff (by decide) kept']
  have low {field : Field 1} (below : field.offset < 42) {P : Prop} :
      (field.offset < icmpErrorLen → P) ↔ P :=
    ⟨fun implied => implied below, fun holds _ => holds⟩
  rw [low (by decide), low (by decide), low (by decide), low (by decide)]
  constructor
  · rintro ⟨⟨⟨⟨⟨⟨⟨same, totLen⟩, ttl⟩, protocol⟩, check⟩, type⟩, code⟩, checksum⟩
    exact ⟨⟨totLen, ttl, protocol, checksum⟩, same, type, code, check⟩
  · intro answer
    exact ⟨⟨⟨⟨⟨⟨⟨answer.same, answer.totLen⟩, answer.ttl⟩, answer.protocol⟩,
      answer.check⟩, answer.type⟩, answer.code⟩, answer.checksum⟩

/-- A time exceeded is the waiting packet exactly if that answers so. -/
theorem timeExceeded_turns_iff :
    SameExcept icmpErrorLen [] (timeExceeded received) waiting ↔
      ExpiredAnswer received waiting := by
  have size : icmpErrorLen = 42 := rfl
  have exchanged : swapAddrs (swapMacs (set16 (set8 (set8 received ipTtl 64) ipProtocol 1) ipTotLen
      icmpErrorTotLen)) = set16 (set8 (set8 (swapAddrs (swapMacs received)) ipTtl 64) ipProtocol 1)
        ipTotLen icmpErrorTotLen := by
    rw [swapMacs_set16 (by decide), swapMacs_set8 (by decide), swapMacs_set8 (by decide),
      swapAddrs_set16 (by decide), swapAddrs_set8 (.inl (by decide)),
      swapAddrs_set8 (.inl (by decide))]
  have reordered (i : Nat) : i ∈ [ipTtl.offset, ipProtocol.offset, ipTotLen.offset,
      ipTotLen.offset + 1, 24, 25, icmpType.offset, 36, 37] ↔
        i ∈ [16, 17, 22, 23, 24, 25, 34, 36, 37] := by
    simp only [List.mem_cons, ipTtl, ipProtocol, ipTotLen, icmpType]
    tauto
  simp only [timeExceeded]
  rw [exchanged, sameExcept_setIcmpChecksum_iff (fun i _ high outside => by omega),
    sameExcept_set8_iff (by decide),
    sameExcept_setIpCheck_iff (fun i high member => by
      simp only [List.mem_cons, List.not_mem_nil, or_false, icmpType] at member
      omega) (fun i _ high outside => by omega),
    sameExcept_set16_iff (by decide) (by decide) (by decide), sameExcept_set8_iff (by decide),
    sameExcept_set8_iff (by decide), sameExcept_congr reordered]
  have low {field : Field 1} (below : field.offset < 42) {P : Prop} :
      (field.offset < icmpErrorLen → P) ↔ P :=
    ⟨fun implied => implied below, fun holds _ => holds⟩
  rw [low (by decide), low (by decide), low (by decide)]
  constructor
  · rintro ⟨⟨⟨⟨⟨⟨same, ttl⟩, protocol⟩, totLen⟩, check⟩, type⟩, checksum⟩
    exact ⟨⟨totLen, ttl, protocol, checksum⟩, same, type, check⟩
  · intro answer
    exact ⟨⟨⟨⟨⟨⟨answer.same, answer.ttl⟩, answer.protocol⟩, answer.totLen⟩,
      answer.check⟩, answer.type⟩, answer.checksum⟩

end

/-- New Ethernet addresses leave what is behind them. -/
theorem readdress_apply_outside {mac : MacAddress} {payload : ByteBuffer} {i : Nat}
    (behind : 12 ≤ i) : readdress mac payload i = payload i := by
  rw [readdress, copyMac_apply_outside (by omega),
    set_apply_outside (by simp only [etherShost]; omega)]

/-- New Ethernet addresses and a new header checksum do not meet. -/
theorem readdress_setIpCheck (mac : MacAddress) (payload : ByteBuffer) :
    readdress mac (setIpCheck payload) = setIpCheck (readdress mac payload) := by
  have addresses (i : Nat) (bound : i < 6) : setIpCheck payload i = payload i :=
    setIpCheck_apply_outside (.inl (by omega))
  have dhost : etherDhost.get (setIpCheck payload) = etherDhost.get payload := by
    apply Vector.ext
    intro i bound
    simp only [Field.get, getElem_read, etherDhost]
    exact addresses _ (by omega)
  funext i
  by_cases inside : i = 24 ∨ i = 25
  · rw [readdress_apply_outside (by omega)]
    refine setIpCheck_apply_congr (fun j _ _ _ _ => ?_) inside
    exact (readdress_apply_outside (by omega)).symm
  · rw [setIpCheck_apply_outside (by omega)]
    simp only [readdress, copyMac, dhost]
    simp only [Field.set, write, setIpCheck_apply_outside (show i < 24 ∨ 26 ≤ i by omega)]

/-- A byte behind the Ethernet addresses may be written before or after they are. -/
theorem readdress_set8 {mac : MacAddress} {payload : ByteBuffer} {field : Field 1} {value : UInt8}
    (behind : 12 ≤ field.offset) :
    readdress mac (set8 payload field value) = set8 (readdress mac payload) field value := by
  have dhost : etherDhost.get (set8 payload field value) = etherDhost.get payload := by
    apply Vector.ext
    intro i bound
    simp only [Field.get, getElem_read, etherDhost]
    exact set8_apply_other (by omega)
  funext i
  by_cases here : i = field.offset
  · subst here
    rw [readdress_apply_outside behind, set8_apply_same, set8_apply_same]
  · rw [set8_apply_other here]
    simp only [readdress, copyMac, dhost]
    simp only [Field.set, write, set8_apply_other here]

/-- A packet may be forwarded before or after it gets new Ethernet addresses. -/
theorem forwardedPayload_readdress (mac : MacAddress) (payload : ByteBuffer) :
    readdress mac (forwardedPayload payload) = forwardedPayload (readdress mac payload) := by
  have ttl : get8 (setIpCheck (readdress mac payload)) ipTtl = get8 (setIpCheck payload) ipTtl := by
    rw [← readdress_setIpCheck, get8_eq, get8_eq]
    exact readdress_apply_outside (by decide)
  simp only [forwardedPayload]
  rw [readdress_setIpCheck, readdress_set8 (by decide), readdress_setIpCheck, ttl]

/-! ## What is left in the buffer -/

/-- Packets have equal bytes exactly if their lengths are equal and their payloads agree. -/
theorem Packet.bytes_eq_iff {packet packet' : Packet} :
    packet.bytes = packet'.bytes ↔ packet.len = packet'.len ∧
      SameExcept packet'.len [] packet.payload packet'.payload := by
  constructor
  · intro same
    have len : packet.len = packet'.len := by
      simpa [Packet.bytes] using congrArg List.length same
    refine ⟨len, sameExcept_contents_iff.mp ?_⟩
    rw [← len]
    exact same.trans (by rw [Packet.bytes, len])
  · rintro ⟨len, same⟩
    rw [Packet.bytes, len]
    exact sameExcept_contents_iff.mpr same

/-- An ICMP error has turned into a packet of its length. -/
theorem error_turns_iff {payload : ByteBuffer} {waiting : Packet} {Answer : Prop}
    (turns : SameExcept icmpErrorLen [] payload waiting.payload ↔ Answer) :
    icmpErrorLen = waiting.len ∧ SameExcept waiting.len [] payload waiting.payload ↔
      waiting.len = icmpErrorLen ∧ Answer := by
  constructor
  · rintro ⟨len, same⟩
    exact ⟨len.symm, turns.mp (len ▸ same)⟩
  · rintro ⟨len, answer⟩
    exact ⟨len.symm, len ▸ turns.mpr answer⟩

/-- A packet that is queued has the address that was found. -/
theorem queuedState_m (host : Host) (received : RouterState) :
    (queuedState host received).m = foundPacket received := by
  simp [queuedState, RouterState.m, RouterState.store]

/-- The IPv4 branch leaves the waiting packet in the buffer exactly if the
packet it handles turns into it. -/
theorem handleIpv4_turns_iff {host : Host} {received : RouterState} {waiting : Packet}
    (behind : ∀ i, received.m.len ≤ i → received.m.payload i = waiting.payload i) :
    (handleIpv4 host received).1.m.bytes = waiting.bytes ↔ Turns host received waiting := by
  have tail (len : received.m.len = waiting.len) (i : Nat) (outside : waiting.len ≤ i) :
      received.m.payload i = waiting.payload i := behind i (by omega)
  rcases ipv4Outcome host received with ⟨echo, handled⟩ | ⟨echo, unroutable, handled⟩ |
    ⟨echo, routed, expired, handled⟩ | ⟨echo, routed, alive, mismatch, handled⟩ |
    ⟨echo, routed, alive, checked, missed, handled⟩ |
    ⟨echo, routed, alive, checked, index, _, _, found, handled⟩
  all_goals rw [handled, Packet.bytes_eq_iff, Turns]
  case echo =>
    rw [if_pos echo, sendBuffer, RouterState.store_m]
    exact and_congr_right fun len => echoReply_turns_iff (tail len)
  case unreachable =>
    rw [if_neg echo, if_pos unroutable, sendBuffer, RouterState.store_m]
    exact error_turns_iff destinationUnreachable_turns_iff
  case expired =>
    rw [if_neg echo, if_neg routed, if_pos expired, sendBuffer, RouterState.store_m]
    exact error_turns_iff timeExceeded_turns_iff
  case dropped =>
    rw [if_neg echo, if_neg routed, if_neg alive, if_neg mismatch, RouterState.store_m]
    exact and_congr_right fun len => damaged_turns_iff (tail len)
  case missed =>
    rw [if_neg echo, if_neg routed, if_neg alive, if_pos checked,
      if_pos (congrArg Prod.fst missed), sendBuffer, RouterState.store_m]
    refine and_congr_right fun len => ?_
    have readdressed : (missedPacket received).payload =
        forwardedPayload (readdress (received.arpTable (-1)).mac received.m.payload) :=
      forwardedPayload_readdress _ _
    rw [readdressed]
    refine forwardedPayload_turns_iff fun i above outside => ?_
    rw [readdress_apply_outside (by omega)]
    exact tail len i outside
  case found =>
    rw [if_neg echo, if_neg routed, if_neg alive, if_pos checked, if_neg (by simp [found])]
    rw [queuedState_m]
    exact and_congr_right fun len => forwardedPayload_turns_iff fun i _ => tail len i

/-! ## The type is kept -/

/-- Both checksum computations and the decrement touch three bytes. -/
theorem forwardedPayload_apply_outside {payload : ByteBuffer} {i : Nat} (notTtl : i ≠ 22)
    (notCheck : i ≠ 24) (notCheck' : i ≠ 25) : forwardedPayload payload i = payload i := by
  have outside : i < 24 ∨ 26 ≤ i := by omega
  simp only [forwardedPayload]
  rw [setIpCheck_apply_outside outside, @set8_apply_other _ _ ipTtl _ notTtl,
    setIpCheck_apply_outside outside]

/-- The IPv4 branch never writes the type of the packet. -/
theorem handleIpv4_etherType (host : Host) (received : RouterState) :
    get16 (handleIpv4 host received).1.m.payload etherType =
      get16 received.m.payload etherType := by
  refine get16_congr fun i low high => ?_
  simp only [etherType] at low high
  have forwarded : forwardedPayload received.m.payload i = received.m.payload i :=
    forwardedPayload_apply_outside (by omega) (by omega) (by omega)
  have single {field : Field 1} {value : UInt8} (payload : ByteBuffer) (late : 14 ≤ field.offset) :
      set8 payload field value i = payload i := set8_apply_other (by omega)
  have double {field : Field 2} {value : BitVec 16} (payload : ByteBuffer)
      (late : 14 ≤ field.offset) : set16 payload field value i = payload i :=
    set16_apply_outside (.inl (by omega))
  rcases ipv4Outcome host received with ⟨_, handled⟩ | ⟨_, _, handled⟩ | ⟨_, _, _, handled⟩ |
    ⟨_, _, _, _, handled⟩ | ⟨_, _, _, _, _, handled⟩ | ⟨_, _, _, _, _, _, _, _, handled⟩
  all_goals rw [handled]
  case echo =>
    rw [sendBuffer, RouterState.store_m]
    simp only [echoReplyPacket, echoReply]
    rw [setIcmpChecksum_apply_outside (.inl (by omega)), setIpCheck_apply_outside (.inl (by omega)),
      swapAddrs_apply_outside (.inl (by omega)), swapMacs_apply_outside (by omega),
      single _ (by decide), single _ (by decide)]
  case unreachable =>
    rw [sendBuffer, RouterState.store_m]
    simp only [unreachablePacket, destinationUnreachable]
    rw [setIcmpChecksum_apply_outside (.inl (by omega)), single _ (by decide),
      single _ (by decide), swapAddrs_apply_outside (.inl (by omega)),
      setIpCheck_apply_outside (.inl (by omega)), single _ (by decide), single _ (by decide),
      double _ (by decide), swapMacs_apply_outside (by omega)]
  case expired =>
    rw [sendBuffer, RouterState.store_m]
    simp only [expiredPacket, timeExceeded]
    rw [setIcmpChecksum_apply_outside (.inl (by omega)), single _ (by decide),
      setIpCheck_apply_outside (.inl (by omega)), swapAddrs_apply_outside (.inl (by omega)),
      swapMacs_apply_outside (by omega), double _ (by decide), single _ (by decide),
      single _ (by decide)]
  case dropped =>
    rw [RouterState.store_m]
    exact setIpCheck_apply_outside (.inl (by omega))
  case missed =>
    rw [sendBuffer, RouterState.store_m]
    exact (readdress_apply_outside low).trans forwarded
  case found =>
    rw [queuedState_m]
    exact forwarded

end CommunicationProtocols.Router
