import CommunicationProtocols.Library.OnesComplement
import CommunicationProtocols.Router.Frame

/-!
# What the checksum function computes

`ip_checksum` adds 32-bit words from the next lower address that is divisible by
4, padding the first and the last word with zero bytes. Modulo `0xFFFF` the
order and the grouping of the words do not matter, so the result is the
complement of the ones'-complement sum of the bytes.
-/

namespace CommunicationProtocols.Router

open Library Library.ByteBuffer

/-! ## The words the function adds -/

/-- A word of 32 bits is the sum of its two words, modulo `2 ^ 16 - 1`. -/
theorem ntohl_modEq (bytes : Vector UInt8 4) : ntohl bytes ≡ wordSum bytes.toList [MOD onesModulus] := by
  obtain ⟨⟨list⟩, size⟩ := bytes
  obtain ⟨b0, b1, b2, b3, rfl⟩ : ∃ b0 b1 b2 b3, list = [b0, b1, b2, b3] := by
    simpa [List.length_eq_four] using size
  have sum : wordSum [b0, b1, b2, b3] =
      b0.toNat * 256 + b1.toNat + (b2.toNat * 256 + b3.toNat + 0) := by
    rw [wordSum_cons_cons, wordSum_cons_cons, wordSum_nil]
  have value : ntohl ⟨⟨[b0, b1, b2, b3]⟩, size⟩ =
      b0.toNat * 2 ^ 24 + b1.toNat * 2 ^ 16 + b2.toNat * 2 ^ 8 + b3.toNat := rfl
  rw [value]
  simp only [Vector.toList_mk]
  rw [sum]
  unfold Nat.ModEq onesModulus
  omega

/-- A word read from memory has 32 bits. -/
theorem ntohl_lt (bytes : Vector UInt8 4) : ntohl bytes < 2 ^ 32 := by
  have b0 := (bytes.get 0).toNat_lt
  have b1 := (bytes.get 1).toNat_lt
  have b2 := (bytes.get 2).toNat_lt
  have b3 := (bytes.get 3).toNat_lt
  unfold ntohl
  omega

/-- A partial word is its bytes with zero bytes around them. -/
theorem partialWord_toList (memory : ByteBuffer) (address : Nat) {skip count : Nat}
    (fits : skip + count ≤ 4) :
    (partialWord memory address skip count).toList =
      List.replicate skip 0 ++ (memory.slice address count ++ List.replicate (4 - skip - count) 0) := by
  apply List.ext_getElem
  · simp
    omega
  · intro i bound bound'
    simp only [partialWord, Vector.getElem_toList, Vector.getElem_ofFn]
    rcases Nat.lt_or_ge i skip with before | behind
    · rw [if_neg (by omega), List.getElem_append_left (by simpa using before),
        List.getElem_replicate]
    · rw [List.getElem_append_right (by simpa using behind)]
      rcases Nat.lt_or_ge i (skip + count) with inside | outside
      · rw [if_pos ⟨behind, inside⟩, List.getElem_append_left (by simp; omega), getElem_slice,
          List.length_replicate]
      · rw [if_neg (by omega), List.getElem_append_right (by simp; omega),
          List.getElem_replicate]

/-- The loop over the blocks is one round and the loop that follows. -/
theorem sumBlocks_succ (memory : ByteBuffer) (address blocks acc : Nat) :
    sumBlocks memory address (blocks + 1) acc =
      sumBlocks memory (address + 4) blocks (add64 acc (ntohl (memory.read address 4))) := by
  conv => lhs; rw [sumBlocks.eq_def]

/-- The loop over complete blocks adds the words of the blocks. -/
theorem sumBlocks_spec (memory : ByteBuffer) (address blocks acc : Nat)
    (room : acc + blocks * 2 ^ 32 < 2 ^ 64) :
    acc ≤ sumBlocks memory address blocks acc ∧
      sumBlocks memory address blocks acc ≤ acc + blocks * 2 ^ 32 ∧
      sumBlocks memory address blocks acc ≡
        acc + wordSum (memory.slice address (4 * blocks)) [MOD onesModulus] := by
  induction blocks generalizing address acc with
  | zero => exact ⟨Nat.le_refl _, Nat.le_add_right _ _, Nat.ModEq.refl _⟩
  | succ blocks ih =>
      have word := ntohl_lt (memory.read address 4)
      have added : add64 acc (ntohl (memory.read address 4)) =
          acc + ntohl (memory.read address 4) := Nat.mod_eq_of_lt (by omega)
      obtain ⟨lower, upper, congruent⟩ :=
        ih (address + 4) (acc + ntohl (memory.read address 4)) (by omega)
      have front : memory.slice address (4 * (blocks + 1)) =
          (memory.read address 4).toList ++ memory.slice (address + 4) (4 * blocks) := by
        rw [Nat.mul_add, Nat.mul_one, Nat.add_comm, slice_add, slice_eq_read]
      rw [sumBlocks_succ, added]
      refine ⟨by omega, by omega, congruent.trans ?_⟩
      rw [front, wordSum_append (by rw [Vector.length_toList]), ← Nat.add_assoc]
      exact ((ntohl_modEq _).add_left acc).add_right _

/-! ## Folding -/

/-- Folding the carries gives a word of the same sum, and zero only for zero. -/
theorem foldCarries_spec (acc : Nat) :
    foldCarries acc < 0x10000 ∧ foldCarries acc ≡ acc [MOD onesModulus] ∧
      (0 < acc → 0 < foldCarries acc) := by
  induction acc using foldCarries.induct with
  | case1 acc small =>
      rw [foldCarries, if_pos small]
      exact ⟨by omega, Nat.ModEq.refl _, id⟩
  | case2 acc large ih =>
      obtain ⟨bound, congruent, positive⟩ := ih
      rw [foldCarries, if_neg large]
      refine ⟨bound, congruent.trans ?_, fun _ => positive (by omega)⟩
      unfold Nat.ModEq onesModulus
      omega

/-- Exchanging the bytes of a word multiplies it by 256. -/
theorem swap_bytes_modEq {acc : Nat} (bound : acc < 0x10000) :
    acc % 2 ^ 16 / 2 ^ 8 + acc % 2 ^ 8 * 2 ^ 8 ≡ 256 * acc [MOD onesModulus] := by
  rw [Nat.mod_eq_of_lt (by omega : acc < 2 ^ 16)]
  unfold Nat.ModEq onesModulus
  omega

/-! ## The parts of the function -/

/-- The partial word at the start of the data. -/
theorem leading_spec (memory : ByteBuffer) (address : Nat) {offset count : Nat}
    (small : offset + count ≤ 4) (aligned : offset = 0 → count = 0) {acc : Nat}
    (computed : (if offset = 0 then 0xffff
      else add64 0xffff (ntohl (partialWord memory address offset count))) = acc) :
    0 < acc ∧ acc < 2 ^ 33 ∧
      acc ≡ wordSum (List.replicate offset 0 ++ memory.slice address count) [MOD onesModulus] := by
  subst computed
  split
  case isTrue zero =>
    rw [zero, aligned zero]
    exact ⟨by decide, by decide, (by decide : 0xffff ≡ 0 [MOD onesModulus])⟩
  case isFalse =>
    have bound := ntohl_lt (partialWord memory address offset count)
    have added : add64 0xffff (ntohl (partialWord memory address offset count)) =
        0xffff + ntohl (partialWord memory address offset count) := Nat.mod_eq_of_lt (by omega)
    have congruent := ntohl_modEq (partialWord memory address offset count)
    rw [partialWord_toList memory address small, ← List.append_assoc, wordSum_append_zeros]
      at congruent
    rw [added]
    refine ⟨by omega, by omega, Nat.ModEq.trans ?_ congruent⟩
    unfold Nat.ModEq onesModulus
    omega

/-- The partial word at the end of the data. -/
theorem trailing_spec (memory : ByteBuffer) (address : Nat) {count acc acc' : Nat}
    (small : count ≤ 4) (room : acc < 2 ^ 63)
    (computed : (if count = 0 then acc
      else add64 acc (ntohl (partialWord memory address 0 count))) = acc') :
    acc ≤ acc' ∧ acc' < 2 ^ 64 ∧
      acc' ≡ acc + wordSum (memory.slice address count) [MOD onesModulus] := by
  subst computed
  split
  case isTrue zero =>
    rw [zero]
    exact ⟨Nat.le_refl _, by omega, Nat.ModEq.refl _⟩
  case isFalse =>
    have bound := ntohl_lt (partialWord memory address 0 count)
    have added : add64 acc (ntohl (partialWord memory address 0 count)) =
        acc + ntohl (partialWord memory address 0 count) := Nat.mod_eq_of_lt (by omega)
    have congruent := ntohl_modEq (partialWord memory address 0 count)
    rw [partialWord_toList memory address (by omega), List.replicate_zero, List.nil_append,
      wordSum_append_zeros] at congruent
    rw [added]
    exact ⟨by omega, by omega, congruent.add_left acc⟩

/-- Folding keeps the accumulated sum modulo `0xFFFF`. -/
theorem folded_spec {acc : Nat} (positive : 0 < acc) (bound : acc < 2 ^ 64) :
    0 < foldCarries (add64 (acc % 2 ^ 32) (acc / 2 ^ 32)) ∧
      foldCarries (add64 (acc % 2 ^ 32) (acc / 2 ^ 32)) < 0x10000 ∧
      foldCarries (add64 (acc % 2 ^ 32) (acc / 2 ^ 32)) ≡ acc [MOD onesModulus] := by
  have added : add64 (acc % 2 ^ 32) (acc / 2 ^ 32) = acc % 2 ^ 32 + acc / 2 ^ 32 :=
    Nat.mod_eq_of_lt (by omega)
  obtain ⟨small, congruent, nonzero⟩ := foldCarries_spec (acc % 2 ^ 32 + acc / 2 ^ 32)
  rw [added]
  refine ⟨nonzero (by omega), small, congruent.trans ?_⟩
  unfold Nat.ModEq onesModulus
  omega

/-- The byte order of the result is reversed for data at an odd address. -/
theorem reversed_spec {offset acc acc' sum : Nat} (positive : 0 < acc) (bound : acc < 0x10000)
    (even : offset % 2 = 0 → acc ≡ sum [MOD onesModulus])
    (odd : offset % 2 = 1 → acc ≡ 256 * sum [MOD onesModulus])
    (computed : (if offset % 2 = 1 then acc % 2 ^ 16 / 2 ^ 8 + acc % 2 ^ 8 * 2 ^ 8 else acc) =
      acc') :
    0 < acc' ∧ acc' < 0x10000 ∧ acc' ≡ sum [MOD onesModulus] := by
  subst computed
  split
  case isTrue isOdd =>
    have congruent := odd isOdd
    refine ⟨by omega, by omega, (swap_bytes_modEq bound).trans ?_⟩
    unfold Nat.ModEq onesModulus at *
    omega
  case isFalse isEven => exact ⟨positive, bound, even (by omega)⟩

/-- The checksum is the complement of a sum that is congruent to the sum of the
words and not zero, at every alignment of the data. -/
theorem ipChecksum_spec (memory : ByteBuffer) (address : Nat) {length : Nat}
    (bounded : length < 2 ^ 32) :
    ∃ sum, 0 < sum ∧ sum < 0x10000 ∧
      sum ≡ wordSum (memory.slice address length) [MOD onesModulus] ∧
      ipChecksum memory address length = htons (~~~ BitVec.ofNat 16 sum) := by
  unfold ipChecksum
  dsimp only
  generalize offsetEq : address % 4 = offset
  generalize countEq : (if offset = 0 then 0 else min (4 - offset) length) = count
  generalize firstEq : (if offset = 0 then 0xffff
    else add64 0xffff (ntohl (partialWord memory address offset count))) = first
  have aligned : offset = 0 → count = 0 := fun zero => by rw [← countEq, if_pos zero]
  have misaligned : offset ≠ 0 → count = min (4 - offset) length := fun nonzero => by
    rw [← countEq, if_neg nonzero]
  have small : offset + count ≤ 4 := by omega
  have fits : count ≤ length := by omega
  have even : 0 < length - count → (offset + count) % 2 = 0 := by omega
  obtain ⟨firstPositive, firstBound, firstSum⟩ := leading_spec memory address small aligned firstEq
  obtain ⟨blocksLower, blocksUpper, blocksSum⟩ := sumBlocks_spec memory (address + count)
    ((length - count) / 4) first (by omega)
  generalize sumBlocks memory (address + count) ((length - count) / 4) first = blocks at *
  generalize lastEq : (if (length - count) % 4 = 0 then blocks
    else add64 blocks (ntohl (partialWord memory (address + count + 4 * ((length - count) / 4)) 0
      ((length - count) % 4)))) = last
  obtain ⟨lastLower, lastBound, lastSum⟩ := trailing_spec memory _ (by omega) (by omega) lastEq
  obtain ⟨foldPositive, foldBound, foldSum⟩ := folded_spec (by omega) lastBound
  generalize foldCarries (add64 (last % 2 ^ 32) (last / 2 ^ 32)) = folded at *
  generalize reversedEq : (if offset % 2 = 1 then
    folded % 2 ^ 16 / 2 ^ 8 + folded % 2 ^ 8 * 2 ^ 8 else folded) = reversed
  have parts : memory.slice address length = memory.slice address count ++
      (memory.slice (address + count) (4 * ((length - count) / 4)) ++
        memory.slice (address + count + 4 * ((length - count) / 4)) ((length - count) % 4)) := by
    rw [← slice_add, ← slice_add, show count +
      (4 * ((length - count) / 4) + (length - count) % 4) = length by omega]
  have total : folded ≡ wordSum (List.replicate offset 0 ++ memory.slice address length)
      [MOD onesModulus] := by
    have added : wordSum (List.replicate offset 0 ++ memory.slice address length) =
        wordSum (List.replicate offset 0 ++ memory.slice address count) +
          (wordSum (memory.slice (address + count) (4 * ((length - count) / 4))) +
            wordSum (memory.slice (address + count + 4 * ((length - count) / 4))
              ((length - count) % 4))) := by
      rw [parts, ← List.append_assoc]
      rcases Nat.eq_zero_or_pos (length - count) with done | more
      · rw [done]
        simp [slice]
      · have blocksEven : (memory.slice (address + count) (4 * ((length - count) / 4))).length % 2 =
            0 := by
          rw [length_slice]
          omega
        rw [wordSum_append (by simpa using even more), wordSum_append blocksEven]
    rw [added, ← Nat.add_assoc]
    exact foldSum.trans (lastSum.trans
      ((blocksSum.trans (firstSum.add_right _)).add_right _))
  obtain ⟨positive, bound, congruent⟩ := reversed_spec foldPositive foldBound
    (fun even => by rwa [wordSum_zeros_append_even even] at total)
    (fun odd => total.trans (wordSum_zeros_append_odd odd _)) reversedEq
  exact ⟨reversed, positive, bound, congruent, rfl⟩

/-! ## Checksum fields -/

/-- The number of two bytes. -/
theorem toNat_append_eight (high low : BitVec 8) :
    (high ++ low).toNat = high.toNat * 256 + low.toNat := by
  rw [BitVec.toNat_append, Nat.shiftLeft_eq, Nat.mul_comm, ← Nat.two_pow_add_eq_or_of_lt low.isLt]

@[simp] theorem htons_htons (x : BitVec 16) : htons (htons x) = x := by
  apply BitVec.eq_of_getLsbD_eq
  intro i bound
  simp only [htons, BitVec.getLsbD_append, BitVec.getLsbD_extractLsb']
  by_cases low : i < 8
  · simp [low]
  · simp [low, show i - 8 < 8 by omega, show 8 + (i - 8) = i by omega]

/-- The word in a field is the field's host value in network byte order. -/
theorem wordSum_field (payload : ByteBuffer) (field : Field 2) :
    wordSum (payload.slice field.offset 2) = (htons (get16 payload field)).toNat := by
  have word : htons (get16 payload field) =
      (payload field.offset).toBitVec ++ (payload (field.offset + 1)).toBitVec := by
    apply BitVec.eq_of_getLsbD_eq
    intro i bound
    simp only [htons, get16, word16, Field.get, getElem_read, BitVec.getLsbD_append,
      BitVec.getLsbD_extractLsb']
    by_cases low : i < 8
    · simp [low, show ¬ 8 + i < 8 by omega]
    · simp [low, show i - 8 < 8 by omega]
  have bytes : payload.slice field.offset 2 =
      [payload field.offset, payload (field.offset + 1)] := rfl
  rw [bytes, word, toNat_append_eight, wordSum_cons_cons, wordSum_nil]
  simp only [UInt8.toNat_toBitVec, Nat.add_zero]

/-- Zero a checksum field and recompute it over the bytes around it. -/
def setChecksum (payload : ByteBuffer) (field : Field 2) (address length : Nat) : ByteBuffer :=
  let payload := set16 payload field 0
  set16 payload field (ipChecksum payload address length)

/-- The sum of the words of a block without its checksum field. -/
def restSum (payload : ByteBuffer) (field : Field 2) (address length : Nat) : Nat :=
  wordSum ((set16 payload field 0).slice address length)

/-- A checksum field inside a block, at an even distance from its start. -/
structure Field.Checks (field : Field 2) (address length : Nat) : Prop where
  lower : address ≤ field.offset
  upper : field.offset + 2 ≤ address + length
  even : (field.offset - address) % 2 = 0
  bounded : length < 2 ^ 32

section

variable {field : Field 2} {address length : Nat}

/-- The words in front of a field, in it and behind it. -/
theorem wordSum_slice_cut (checks : field.Checks address length) (payload : ByteBuffer) :
    wordSum (payload.slice address length) =
      wordSum (payload.slice address (field.offset - address)) +
        ((htons (get16 payload field)).toNat +
          wordSum (payload.slice (field.offset + 2) (address + length - field.offset - 2))) := by
  obtain ⟨lower, upper, even, _⟩ := checks
  have parts : length =
      field.offset - address + (2 + (address + length - field.offset - 2)) := by omega
  conv => lhs; rw [parts]
  rw [slice_add, wordSum_append (by rwa [length_slice]), Nat.add_sub_cancel' lower, slice_add,
    wordSum_append (by rw [length_slice]), wordSum_field]

/-- The sum of a block is the sum of its checksum field and of the rest. -/
theorem wordSum_slice_eq (checks : field.Checks address length) (payload : ByteBuffer) :
    wordSum (payload.slice address length) =
      restSum payload field address length + (htons (get16 payload field)).toNat := by
  have front : (set16 payload field 0).slice address (field.offset - address) =
      payload.slice address (field.offset - address) :=
    slice_write_disjoint payload (bytes16 0) (.inl (by have := checks.lower; omega))
  have back : (set16 payload field 0).slice (field.offset + 2)
      (address + length - field.offset - 2) =
        payload.slice (field.offset + 2) (address + length - field.offset - 2) :=
    slice_write_disjoint payload (bytes16 0) (.inr (Nat.le_refl _))
  have zero : get16 (set16 payload field 0) field = 0 := by
    rw [get16, set16, Field.get, Field.set, read_write_same, word16_bytes16]
  rw [restSum, wordSum_slice_cut checks, wordSum_slice_cut checks, front, back, zero]
  have nothing : (htons 0).toNat = 0 := by decide
  omega

/-- The checksum field does not count in the rest. -/
theorem restSum_congr {payload payload' : ByteBuffer}
    (same : ∀ i, address ≤ i → i < address + length → ¬ (field.offset ≤ i ∧ i < field.offset + 2) →
      payload i = payload' i) :
    restSum payload field address length = restSum payload' field address length := by
  refine congrArg wordSum (slice_congr fun i low high => ?_)
  by_cases inside : field.offset ≤ i ∧ i < field.offset + 2
  · obtain ⟨k, rfl⟩ := Nat.exists_eq_add_of_le inside.1
    rw [set16, set16, Field.set, Field.set, write_apply_inside _ _ _ k (by omega),
      write_apply_inside _ _ _ k (by omega)]
  · rw [set16, set16, Field.set, Field.set, write_apply_outside _ _ _ inside,
      write_apply_outside _ _ _ inside]
    exact same i low high inside

/-- What is written to a checksum field. -/
theorem checksum_complement (checks : field.Checks address length) (payload : ByteBuffer) :
    ∃ sum, 0 < sum ∧ sum < 0x10000 ∧
      sum ≡ restSum payload field address length [MOD onesModulus] ∧
      (htons (get16 (setChecksum payload field address length) field)).toNat = 0xFFFF - sum := by
  obtain ⟨sum, positive, bound, congruent, computed⟩ :=
    ipChecksum_spec (set16 payload field 0) address checks.bounded
  refine ⟨sum, positive, bound, congruent, ?_⟩
  have written : get16 (setChecksum payload field address length) field =
      ipChecksum (set16 payload field 0) address length := by
    simp only [setChecksum]
    rw [get16, set16, Field.get, Field.set, read_write_same, word16_bytes16]
  rw [written, computed, htons_htons, BitVec.toNat_not, BitVec.toNat_ofNat]
  omega

/-- The rest of the sum does not depend on the checksum field. -/
theorem restSum_setChecksum (payload : ByteBuffer) :
    restSum (setChecksum payload field address length) field address length =
      restSum payload field address length := by
  refine restSum_congr fun i _ _ outside => ?_
  simp only [setChecksum, set16, Field.set]
  rw [write_apply_outside _ _ _ outside, write_apply_outside _ _ _ outside]

/-- Without its checksum field a block is zero only if its other bytes are. -/
theorem restSum_eq_zero_iff (payload : ByteBuffer) :
    restSum payload field address length = 0 ↔ ∀ i, address ≤ i → i < address + length →
      ¬ (field.offset ≤ i ∧ i < field.offset + 2) → payload i = 0 := by
  rw [restSum, wordSum_eq_zero_iff]
  constructor
  · intro zero i low high outside
    have member : (set16 payload field 0) i ∈ (set16 payload field 0).slice address length :=
      List.mem_map.mpr ⟨i - address, List.mem_range.mpr (by omega), by rw [Nat.add_sub_cancel' low]⟩
    rw [← zero _ member, set16, Field.set, write_apply_outside _ _ _ outside]
  · intro zero byte member
    obtain ⟨k, bound, rfl⟩ := List.mem_map.mp member
    have inside := List.mem_range.mp bound
    by_cases inField : field.offset ≤ address + k ∧ address + k < field.offset + 2
    · obtain ⟨l, same⟩ := Nat.exists_eq_add_of_le inField.1
      rw [same, set16, Field.set, write_apply_inside _ _ _ l (by omega)]
      obtain rfl | rfl : l = 0 ∨ l = 1 := by omega
      · rfl
      · rfl
    · rw [set16, Field.set, write_apply_outside _ _ _ inField]
      exact zero _ (by omega) (by omega) inField

/-- The sum of a block with a recomputed checksum and of the bytes behind it is
all ones exactly when the bytes behind it add up to zero and not every byte is
zero. -/
theorem onesSum_setChecksum_append_iff (checks : field.Checks address length)
    (even : length % 2 = 0) (payload : ByteBuffer) (behind : Nat) :
    onesSum ((setChecksum payload field address length).slice address (length + behind)) = 0xFFFF ↔
      wordSum (payload.slice (address + length) behind) ≡ 0 [MOD onesModulus] ∧
        restSum payload field address length +
          wordSum (payload.slice (address + length) behind) ≠ 0 := by
  obtain ⟨sum, positive, bound, congruent, written⟩ := checksum_complement checks payload
  have kept : (setChecksum payload field address length).slice (address + length) behind =
      payload.slice (address + length) behind := by
    have upper := checks.upper
    simp only [setChecksum, set16, Field.set]
    rw [slice_write_disjoint _ _ (.inr upper), slice_write_disjoint _ _ (.inr upper)]
  rw [onesSum_eq_iff, slice_add, wordSum_append (by rwa [length_slice]), kept,
    wordSum_slice_eq checks, restSum_setChecksum, written]
  unfold Nat.ModEq onesModulus at *
  omega

/-- A recomputed checksum makes the sum of its block all ones, unless everything
else in the block is zero. -/
theorem onesSum_setChecksum_iff (checks : field.Checks address length) (even : length % 2 = 0)
    (payload : ByteBuffer) :
    onesSum ((setChecksum payload field address length).slice address length) = 0xFFFF ↔
      restSum payload field address length ≠ 0 := by
  have whole := onesSum_setChecksum_append_iff checks even payload 0
  have nothing : wordSum (payload.slice (address + length) 0) = 0 := rfl
  rw [nothing, Nat.add_zero, Nat.add_zero] at whole
  exact whole.trans (and_iff_right (Nat.ModEq.refl 0))

/-- A checksum field holds what would be recomputed exactly when the words add
up to zero and the field is not the other zero. -/
theorem checksum_matches_iff (checks : field.Checks address length) (payload : ByteBuffer) :
    get16 (setChecksum payload field address length) field = get16 payload field ↔
      wordSum (payload.slice address length) ≡ 0 [MOD onesModulus] ∧
        get16 payload field ≠ 0xFFFF := by
  obtain ⟨sum, positive, bound, congruent, written⟩ := checksum_complement checks payload
  have allOnes : get16 payload field = 0xFFFF ↔ (htons (get16 payload field)).toNat = 0xFFFF := by
    constructor
    · intro ones
      rw [ones]
      decide
    · intro ones
      have same : htons (get16 payload field) = 0xFFFF := BitVec.eq_of_toNat_eq ones
      rw [← htons_htons (get16 payload field), same]
      decide
  have equal : get16 (setChecksum payload field address length) field = get16 payload field ↔
      0xFFFF - sum = (htons (get16 payload field)).toNat := by
    rw [← written, BitVec.toNat_inj]
    exact ⟨congrArg htons, fun same => by
      rw [← htons_htons (get16 payload field), ← same, htons_htons]⟩
  have small := (htons (get16 payload field)).isLt
  rw [equal, ne_eq, allOnes, wordSum_slice_eq checks]
  unfold Nat.ModEq onesModulus at *
  omega

end

end CommunicationProtocols.Router
