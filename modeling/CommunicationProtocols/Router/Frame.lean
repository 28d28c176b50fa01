import CommunicationProtocols.Library.ByteBuffer
import Mathlib.Algebra.Group.Nat.Defs

/-!
# Frames, header fields and the checksum

A `packet` is a length, a payload buffer and an interface number. The header
structures of the source are overlays on the payload, so a header field is a
range of payload offsets. The payload starts at an address divisible by 4, the
`int` in front of it being aligned.
-/

namespace CommunicationProtocols.Router

open Library

abbrev MacAddress := Vector UInt8 6

/-- `MAX_LEN`. -/
def maxLen : Nat := 1600

/-- The structure `packet`. -/
structure Packet where
  len : Nat
  payload : ByteBuffer
  interface : Int

/-- The bytes `send_packet` writes. -/
def Packet.bytes (packet : Packet) : List UInt8 := packet.payload.contents packet.len

/-- `htons` on a little-endian host. -/
def htons (x : BitVec 16) : BitVec 16 := x.extractLsb' 0 8 ++ x.extractLsb' 8 8

/-! ## Header fields -/

/-- A field of a header: where it starts in the payload and how many bytes it has. -/
structure Field (n : Nat) where
  offset : Nat

namespace Field

variable {n : Nat}

def get (field : Field n) (payload : ByteBuffer) : Vector UInt8 n := payload.read field.offset n

def set (field : Field n) (payload : ByteBuffer) (bytes : Vector UInt8 n) : ByteBuffer :=
  payload.write field.offset bytes

end Field

/-- `struct ether_header`, at the start of the payload. -/
def etherDhost : Field 6 := ⟨0⟩
def etherShost : Field 6 := ⟨6⟩
def etherType : Field 2 := ⟨12⟩

/-- `struct iphdr`, behind the Ethernet header. -/
def ipTotLen : Field 2 := ⟨14 + 2⟩
def ipTtl : Field 1 := ⟨14 + 8⟩
def ipProtocol : Field 1 := ⟨14 + 9⟩
def ipCheck : Field 2 := ⟨14 + 10⟩
def ipSaddr : Field 4 := ⟨14 + 12⟩
def ipDaddr : Field 4 := ⟨14 + 16⟩

/-- `struct icmphdr`, behind an IPv4 header of 20 bytes. -/
def icmpType : Field 1 := ⟨14 + 20⟩
def icmpCode : Field 1 := ⟨14 + 20 + 1⟩
def icmpChecksum : Field 2 := ⟨14 + 20 + 2⟩

/-- `struct ether_arp`, behind the Ethernet header. -/
def arpHrd : Field 2 := ⟨14⟩
def arpPro : Field 2 := ⟨14 + 2⟩
def arpHln : Field 1 := ⟨14 + 4⟩
def arpPln : Field 1 := ⟨14 + 5⟩
def arpOp : Field 2 := ⟨14 + 6⟩
def arpSha : Field 6 := ⟨14 + 8⟩
def arpSpa : Field 4 := ⟨14 + 14⟩
def arpTha : Field 6 := ⟨14 + 18⟩
def arpTpa : Field 4 := ⟨14 + 24⟩

def sizeofEtherHeader : Nat := 14
def sizeofIphdr : Nat := 20
def sizeofIcmphdr : Nat := 8
def sizeofEtherArp : Nat := 28

/-- The host's value of a 16-bit field. -/
def get16 (payload : ByteBuffer) (field : Field 2) : BitVec 16 := word16 (field.get payload)

def set16 (payload : ByteBuffer) (field : Field 2) (value : BitVec 16) : ByteBuffer :=
  field.set payload (bytes16 value)

/-- The host's value of a 32-bit field. -/
def get32 (payload : ByteBuffer) (field : Field 4) : BitVec 32 := word32 (field.get payload)

def set32 (payload : ByteBuffer) (field : Field 4) (value : BitVec 32) : ByteBuffer :=
  field.set payload (bytes32 value)

def get8 (payload : ByteBuffer) (field : Field 1) : UInt8 := (field.get payload)[0]

def set8 (payload : ByteBuffer) (field : Field 1) (value : UInt8) : ByteBuffer :=
  field.set payload #v[value]

/-! ## The checksum -/

/-- Addition of `uint64_t` values. -/
def add64 (x y : Nat) : Nat := (x + y) % 2 ^ 64

/-- `ntohl` of a word in memory: its bytes read most significant first. -/
def ntohl (bytes : Vector UInt8 4) : Nat :=
  (bytes.get 0).toNat * 2 ^ 24 + (bytes.get 1).toNat * 2 ^ 16 + (bytes.get 2).toNat * 2 ^ 8 +
    (bytes.get 3).toNat

/-- A zeroed word with `count` bytes of memory copied to its byte `skip`. -/
def partialWord (memory : ByteBuffer) (address skip count : Nat) : Vector UInt8 4 :=
  Vector.ofFn fun i =>
    if skip ≤ i.val ∧ i.val < skip + count then memory (address + (i - skip)) else 0

/-- The loop over complete 32-bit blocks. -/
def sumBlocks (memory : ByteBuffer) (address : Nat) : Nat → Nat → Nat
  | 0, acc => acc
  | blocks + 1, acc =>
      sumBlocks memory (address + 4) blocks (add64 acc (ntohl (memory.read address 4)))

/-- The loop that folds deferred carries. -/
def foldCarries (acc : Nat) : Nat :=
  if acc / 2 ^ 16 = 0 then acc else foldCarries (acc % 2 ^ 16 + acc / 2 ^ 16)
termination_by acc
decreasing_by omega

/-- `ip_checksum` of `length` bytes at an address; `memory` is indexed by
addresses modulo 4. -/
def ipChecksum (memory : ByteBuffer) (address length : Nat) : BitVec 16 :=
  let offset := address % 4
  let count := if offset = 0 then 0 else min (4 - offset) length
  let acc :=
    if offset = 0 then 0xffff
    else add64 0xffff (ntohl (partialWord memory address offset count))
  let data := address + count
  let length := length - count
  let acc := sumBlocks memory data (length / 4) acc
  let data := data + 4 * (length / 4)
  let length := length % 4
  let acc :=
    if length = 0 then acc else add64 acc (ntohl (partialWord memory data 0 length))
  let acc := add64 (acc % 2 ^ 32) (acc / 2 ^ 32)
  let acc := foldCarries acc
  let acc := if offset % 2 = 1 then acc % 2 ^ 16 / 2 ^ 8 + acc % 2 ^ 8 * 2 ^ 8 else acc
  htons (~~~ BitVec.ofNat 16 acc)

end CommunicationProtocols.Router
