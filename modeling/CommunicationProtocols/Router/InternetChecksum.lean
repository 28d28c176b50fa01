import CommunicationProtocols.Router.Checksum

/-!
# The checksum of a byte string

`ip_checksum` returns the Internet checksum of the bytes it is given, wherever
they lie in memory. Its additions are listed next to it; none of them reaches
the end of the accumulator's range, and the folding loop makes three at most.
-/

namespace CommunicationProtocols.Router

open Library Library.ByteBuffer

/-! ## The additions to the accumulator -/

/-- The additions of the loop over complete 32-bit blocks. -/
def sumBlocksAdditions (memory : ByteBuffer) (address : Nat) : Nat → Nat → List (Nat × Nat)
  | 0, _ => []
  | blocks + 1, acc =>
      let word := ntohl (memory.read address 4)
      (acc, word) :: sumBlocksAdditions memory (address + 4) blocks (add64 acc word)

/-- The additions of the loop that folds deferred carries, one for each round. -/
def foldCarriesAdditions (acc : Nat) : List (Nat × Nat) :=
  if acc / 2 ^ 16 = 0 then []
  else (acc % 2 ^ 16, acc / 2 ^ 16) :: foldCarriesAdditions (acc % 2 ^ 16 + acc / 2 ^ 16)
termination_by acc
decreasing_by omega

/-- Everything `ip_checksum` adds to its accumulator, in order. -/
def ipChecksumAdditions (memory : ByteBuffer) (address length : Nat) : List (Nat × Nat) :=
  let offset := address % 4
  let count := if offset = 0 then 0 else min (4 - offset) length
  let first := ntohl (partialWord memory address offset count)
  let acc := if offset = 0 then 0xffff else add64 0xffff first
  let data := address + count
  let length := length - count
  let blocks := sumBlocks memory data (length / 4) acc
  let lastData := data + 4 * (length / 4)
  let lastLength := length % 4
  let last := ntohl (partialWord memory lastData 0 lastLength)
  let total := if lastLength = 0 then blocks else add64 blocks last
  (if offset = 0 then [] else [(0xffff, first)]) ++
    sumBlocksAdditions memory data (length / 4) acc ++
    (if lastLength = 0 then [] else [(blocks, last)]) ++
    (total % 2 ^ 32, total / 2 ^ 32) ::
      foldCarriesAdditions (add64 (total % 2 ^ 32) (total / 2 ^ 32))

/-- What the accumulator holds after the additions listed, each of 64 bits. -/
def accumulated (acc : Nat) (additions : List (Nat × Nat)) : Nat :=
  additions.foldl (fun _ addition => add64 addition.1 addition.2) acc

@[simp] theorem accumulated_nil (acc : Nat) : accumulated acc [] = acc := rfl

@[simp] theorem accumulated_cons (acc x y : Nat) (additions : List (Nat × Nat)) :
    accumulated acc ((x, y) :: additions) = accumulated (add64 x y) additions := rfl

/-- Additions, one list behind the other. -/
theorem accumulated_append (acc : Nat) (additions additions' : List (Nat × Nat)) :
    accumulated acc (additions ++ additions') =
      accumulated (accumulated acc additions) additions' := List.foldl_append

/-- An addition under a condition. -/
theorem accumulated_optional (condition : Prop) [Decidable condition] (acc x y : Nat) :
    accumulated acc (if condition then [] else [(x, y)]) =
      if condition then acc else add64 x y := by
  split <;> rfl

/-- The loop over the blocks does the additions that are listed for it. -/
theorem sumBlocks_eq_accumulated (memory : ByteBuffer) (address blocks acc : Nat) :
    sumBlocks memory address blocks acc =
      accumulated acc (sumBlocksAdditions memory address blocks acc) := by
  induction blocks generalizing address acc with
  | zero => rfl
  | succ blocks ih =>
      rw [sumBlocks_succ, ih, sumBlocksAdditions, accumulated_cons]

/-- A sum of 64 bits has 64 bits. -/
theorem add64_lt (x y : Nat) : add64 x y < 2 ^ 64 := Nat.mod_lt _ (Nat.two_pow_pos 64)

/-- The loop over the carries does the additions that are listed for it. -/
theorem foldCarries_eq_accumulated {acc : Nat} (bound : acc < 2 ^ 64) :
    foldCarries acc = accumulated acc (foldCarriesAdditions acc) := by
  induction acc using foldCarries.induct with
  | case1 acc small =>
      rw [foldCarries, foldCarriesAdditions, if_pos small, if_pos small, accumulated_nil]
  | case2 acc large ih =>
      have fits : acc % 2 ^ 16 + acc / 2 ^ 16 < 2 ^ 64 := by omega
      rw [foldCarries, foldCarriesAdditions, if_neg large, if_neg large, accumulated_cons, add64,
        Nat.mod_eq_of_lt fits]
      exact ih fits

/-- The checksum is read off the accumulator after exactly the additions listed:
its bytes are exchanged where the address is odd, and complemented. -/
theorem ipChecksum_eq_accumulated (memory : ByteBuffer) (address length : Nat) :
    ipChecksum memory address length =
      let acc := accumulated 0xffff (ipChecksumAdditions memory address length)
      htons (~~~ BitVec.ofNat 16
        (if address % 4 % 2 = 1 then acc % 2 ^ 16 / 2 ^ 8 + acc % 2 ^ 8 * 2 ^ 8 else acc)) := by
  unfold ipChecksum ipChecksumAdditions
  simp only [accumulated_append, accumulated_cons, accumulated_optional,
    ← sumBlocks_eq_accumulated]
  rw [← foldCarries_eq_accumulated (add64_lt _ _)]

/-- At most `count` additions, none of which overflows 64 bits. -/
structure Bounded (count : Nat) (additions : List (Nat × Nat)) : Prop where
  length : additions.length ≤ count
  fits : ∀ addition ∈ additions, addition.1 + addition.2 < 2 ^ 64

namespace Bounded

variable {count count' : Nat} {additions additions' : List (Nat × Nat)}

/-- No additions are bounded. -/
theorem nil : Bounded 0 [] := ⟨le_refl 0, fun _ member => by cases member⟩

/-- An addition that does not overflow may come first. -/
theorem cons {x y : Nat} (first : x + y < 2 ^ 64) (rest : Bounded count additions) :
    Bounded (count + 1) ((x, y) :: additions) := by
  refine ⟨Nat.succ_le_succ rest.length, fun addition member => ?_⟩
  rcases List.mem_cons.mp member with rfl | later
  · exact first
  · exact rest.fits addition later

/-- The bound on the number of additions may be raised. -/
theorem mono (bounded : Bounded count additions) (le : count ≤ count') :
    Bounded count' additions := ⟨bounded.length.trans le, bounded.fits⟩

/-- An addition that is made on a condition only. -/
theorem optional {condition : Prop} [Decidable condition] {x y : Nat} (fits : x + y < 2 ^ 64) :
    Bounded 1 (if condition then [] else [(x, y)]) := by
  split
  case isTrue => exact nil.mono (Nat.zero_le 1)
  case isFalse => exact .cons fits .nil

/-- Bounded additions, one list behind the other, are bounded. -/
theorem append (front : Bounded count additions) (back : Bounded count' additions') :
    Bounded (count + count') (additions ++ additions') := by
  refine ⟨?_, List.forall_mem_append.mpr ⟨front.fits, back.fits⟩⟩
  rw [List.length_append]
  exact Nat.add_le_add front.length back.length

end Bounded

/-- The additions over the blocks do not overflow, if there is room for as many words. -/
theorem sumBlocksAdditions_bounded (memory : ByteBuffer) (address blocks acc : Nat)
    (room : acc + blocks * 2 ^ 32 < 2 ^ 64) :
    Bounded blocks (sumBlocksAdditions memory address blocks acc) := by
  induction blocks generalizing address acc with
  | zero => exact .nil
  | succ blocks ih =>
      have word := ntohl_lt (memory.read address 4)
      have added : add64 acc (ntohl (memory.read address 4)) =
          acc + ntohl (memory.read address 4) := Nat.mod_eq_of_lt (by omega)
      have rest := ih (address + 4) (acc + ntohl (memory.read address 4)) (by omega)
      rw [← added] at rest
      exact .cons (by omega) rest

/-- A round of the folding loop takes the accumulator below the next smaller
bound; below `2 ^ 16` the loop stops. -/
theorem foldCarriesAdditions_bounded {rounds bound bound' acc : Nat} (small : acc < bound)
    (fits : bound ≤ 2 ^ 63) (folds : 2 ^ 16 + bound / 2 ^ 16 ≤ bound')
    (rest : ∀ acc', acc' < bound' → acc' < acc → Bounded rounds (foldCarriesAdditions acc')) :
    Bounded (rounds + 1) (foldCarriesAdditions acc) := by
  rw [foldCarriesAdditions]
  split
  case isTrue => exact Bounded.nil.mono (Nat.zero_le _)
  case isFalse large => exact .cons (by omega) (rest _ (by omega) (by omega))

/-- Folding a sum of 33 bits takes at most three additions, and none overflows. -/
theorem foldCarriesAdditions_bounded_three {acc : Nat} (small : acc < 2 ^ 33) :
    Bounded 3 (foldCarriesAdditions acc) := by
  apply foldCarriesAdditions_bounded small (by omega) (by omega : _ ≤ 2 ^ 18)
  intro second smallSecond _
  apply foldCarriesAdditions_bounded smallSecond (by omega) (by omega : _ ≤ 2 ^ 16 + 4)
  intro third smallThird _
  rw [foldCarriesAdditions]
  split
  case isTrue => exact Bounded.nil.mono (Nat.zero_le _)
  case isFalse large =>
    refine .cons (by omega) ?_
    rw [foldCarriesAdditions, if_pos (by omega)]
    exact .nil

/-- The additions of the whole function: one for each block, and six others. -/
theorem ipChecksumAdditions_bounded (memory : ByteBuffer) (address : Nat) {length : Nat}
    (bounded : length < 2 ^ 32) :
    Bounded (length / 4 + 6) (ipChecksumAdditions memory address length) := by
  unfold ipChecksumAdditions
  dsimp only
  generalize address % 4 = offset
  generalize countEq : (if offset = 0 then 0 else min (4 - offset) length) = count
  have firstWord := ntohl_lt (partialWord memory address offset count)
  generalize ntohl (partialWord memory address offset count) = first at *
  have firstBounded : Bounded 1 (if offset = 0 then [] else [(0xffff, first)]) :=
    .optional (by omega)
  have accBound : (if offset = 0 then 0xffff else add64 0xffff first) < 2 ^ 33 := by
    have reduced : add64 0xffff first ≤ 0xffff + first := Nat.mod_le _ _
    split <;> omega
  generalize (if offset = 0 then 0xffff else add64 0xffff first) = acc at *
  have room : acc + (length - count) / 4 * 2 ^ 32 < 2 ^ 63 := by omega
  have blocksBounded := sumBlocksAdditions_bounded memory (address + count)
    ((length - count) / 4) acc (by omega)
  obtain ⟨_, blocksUpper, _⟩ := sumBlocks_spec memory (address + count)
    ((length - count) / 4) acc (by omega)
  generalize sumBlocks memory (address + count) ((length - count) / 4) acc = blocks at *
  generalize address + count + 4 * ((length - count) / 4) = lastData
  have lastWord := ntohl_lt (partialWord memory lastData 0 ((length - count) % 4))
  generalize ntohl (partialWord memory lastData 0 ((length - count) % 4)) = last at *
  have lastBounded : Bounded 1 (if (length - count) % 4 = 0 then [] else [(blocks, last)]) :=
    .optional (by omega)
  have totalBound : (if (length - count) % 4 = 0 then blocks else add64 blocks last) < 2 ^ 64 := by
    have reduced : add64 blocks last ≤ blocks + last := Nat.mod_le _ _
    split <;> omega
  generalize (if (length - count) % 4 = 0 then blocks else add64 blocks last) = total at *
  have folded : add64 (total % 2 ^ 32) (total / 2 ^ 32) < 2 ^ 33 := by
    have reduced : add64 (total % 2 ^ 32) (total / 2 ^ 32) ≤ total % 2 ^ 32 + total / 2 ^ 32 :=
      Nat.mod_le _ _
    omega
  have foldedBounded := foldCarriesAdditions_bounded_three folded
  have all := ((firstBounded.append blocksBounded).append lastBounded).append
    (foldedBounded.cons (by omega : total % 2 ^ 32 + total / 2 ^ 32 < 2 ^ 64))
  exact all.mono (by omega)

/-! ## The value -/

/-- The number two bytes of memory are, most significant byte first. -/
def bigEndian16 (bytes : Vector UInt8 2) : Nat := (bytes.get 0).toNat * 256 + (bytes.get 1).toNat

/-- Read in network order, the bytes of a word are the swapped word. -/
theorem bigEndian16_bytes16 (word : BitVec 16) : bigEndian16 (bytes16 word) = (htons word).toNat := by
  rw [htons, toNat_append_eight]
  rfl

/-- A checksum as it lies in memory is the complement of the ones'-complement
sum of the bytes, where the sum is never represented as zero. -/
def IsInternetChecksum (bytes : List UInt8) (checksum : BitVec 16) : Prop :=
  ∃ sum, 1 ≤ sum ∧ sum ≤ 0xFFFF ∧ sum ≡ wordSum bytes [MOD 0xFFFF] ∧
    bigEndian16 (bytes16 checksum) = 0xFFFF - sum

/-- A byte string has one checksum. -/
theorem IsInternetChecksum.unique {bytes : List UInt8} {checksum checksum' : BitVec 16}
    (first : IsInternetChecksum bytes checksum) (second : IsInternetChecksum bytes checksum') :
    checksum = checksum' := by
  obtain ⟨sum, low, high, congruent, value⟩ := first
  obtain ⟨sum', low', high', congruent', value'⟩ := second
  have same : sum = sum' := by
    have modulo : sum % 0xFFFF = sum' % 0xFFFF := congruent.trans congruent'.symm
    omega
  rw [bigEndian16_bytes16] at value value'
  have swapped : htons checksum = htons checksum' :=
    BitVec.eq_of_toNat_eq (by rw [value, value', same])
  rw [← htons_htons checksum, swapped, htons_htons]

/-- The function computes the Internet checksum of the bytes it is given. -/
theorem ipChecksum_isInternetChecksum (memory : ByteBuffer) (address : Nat) {bytes : List UInt8}
    (bounded : bytes.length < 2 ^ 32) (placed : memory.slice address bytes.length = bytes) :
    IsInternetChecksum bytes (ipChecksum memory address bytes.length) := by
  obtain ⟨sum, positive, small, congruent, computed⟩ := ipChecksum_spec memory address bounded
  rw [placed] at congruent
  refine ⟨sum, positive, by omega, congruent, ?_⟩
  rw [bigEndian16_bytes16, computed, htons_htons, BitVec.toNat_not, BitVec.toNat_ofNat]
  omega

/-- Equal bytes have equal checksums, wherever they lie. -/
theorem ipChecksum_congr {memory memory' : ByteBuffer} {address address' length : Nat}
    (bounded : length < 2 ^ 32) (same : memory.slice address length = memory'.slice address' length) :
    ipChecksum memory address length = ipChecksum memory' address' length := by
  obtain ⟨bytes, placed⟩ : ∃ bytes, memory.slice address length = bytes := ⟨_, rfl⟩
  have size : bytes.length = length := by rw [← placed, length_slice]
  subst size
  exact (ipChecksum_isInternetChecksum memory address bounded placed).unique
    (ipChecksum_isInternetChecksum memory' address' bounded (same ▸ placed))

/-- At every address `ip_checksum` returns the Internet checksum of the bytes
there. It depends on the bytes only, makes finitely many additions and none that
overflows its accumulator. -/
theorem ipChecksum_rfc1071 (memory : ByteBuffer) (address : Nat) (bytes : List UInt8)
    (bounded : bytes.length < 2 ^ 32) (placed : memory.slice address bytes.length = bytes) :
    IsInternetChecksum bytes (ipChecksum memory address bytes.length) ∧
      (∀ (memory' : ByteBuffer) (address' : Nat), memory'.slice address' bytes.length = bytes →
        ipChecksum memory' address' bytes.length = ipChecksum memory address bytes.length) ∧
      Bounded (bytes.length / 4 + 6) (ipChecksumAdditions memory address bytes.length) := by
  refine ⟨ipChecksum_isInternetChecksum memory address bounded placed, ?_,
    ipChecksumAdditions_bounded memory address bounded⟩
  intro memory' address' placed'
  exact ipChecksum_congr bounded (placed'.trans placed.symm)

/-- Five bytes at an odd address. -/
theorem ipChecksum_rfc1071_odd :
    IsInternetChecksum [0x45, 0x00, 0xff, 0x1c, 0x80]
        (ipChecksum (ByteBuffer.receive (fun _ => 7) [9, 9, 9, 0x45, 0x00, 0xff, 0x1c, 0x80]) 3 5) ∧
      (∀ (memory' : ByteBuffer) (address' : Nat),
        memory'.slice address' 5 = [0x45, 0x00, 0xff, 0x1c, 0x80] →
          ipChecksum memory' address' 5 = ipChecksum
            (ByteBuffer.receive (fun _ => 7) [9, 9, 9, 0x45, 0x00, 0xff, 0x1c, 0x80]) 3 5) ∧
      Bounded (5 / 4 + 6) (ipChecksumAdditions
        (ByteBuffer.receive (fun _ => 7) [9, 9, 9, 0x45, 0x00, 0xff, 0x1c, 0x80]) 3 5) :=
  ipChecksum_rfc1071 _ 3 [0x45, 0x00, 0xff, 0x1c, 0x80] (by decide) (by decide)

end CommunicationProtocols.Router
