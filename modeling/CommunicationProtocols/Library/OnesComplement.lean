import Mathlib.Algebra.BigOperators.Group.List.Basic
import Mathlib.Data.Nat.ModEq

/-!
# Ones'-complement sums

The sum of a byte string is the ones'-complement sum of its big-endian 16-bit
words, a last odd byte being padded with a zero byte. A carry out of the top bit
is added at the bottom, so the sum is the plain sum of the words modulo
`0xFFFF`, with `0xFFFF` in the place of zero unless every word is zero.
-/

namespace CommunicationProtocols.Library

/-- The number of values a ones'-complement word can tell apart. -/
def onesModulus : Nat := 0xFFFF

/-- The big-endian 16-bit words of a byte string. -/
def words : List UInt8 → List Nat
  | [] => []
  | [high] => [high.toNat * 256]
  | high :: low :: rest => (high.toNat * 256 + low.toNat) :: words rest

/-- Addition with the carry added at the bottom. -/
def endAround (x y : Nat) : Nat := (x + y) % 0x10000 + (x + y) / 0x10000

/-- The ones'-complement sum of the words of a byte string. -/
def onesSum (bytes : List UInt8) : Nat := (words bytes).foldr endAround 0

/-- The plain sum of the words of a byte string. -/
def wordSum (bytes : List UInt8) : Nat := (words bytes).sum

/-- Words have 16 bits. -/
theorem words_lt (bytes : List UInt8) : ∀ word ∈ words bytes, word < 0x10000 := by
  induction bytes using words.induct with
  | case1 => simp [words]
  | case2 high =>
      have bound := high.toNat_lt
      simp only [words, List.mem_singleton, forall_eq]
      omega
  | case3 high low rest ih =>
      have boundHigh := high.toNat_lt
      have boundLow := low.toNat_lt
      simp only [words, List.mem_cons, forall_eq_or_imp]
      exact ⟨by omega, ih⟩

/-! ## The ones'-complement sum and the plain sum -/

/-- A sum with its carry around the end is the sum, modulo `2 ^ 16 - 1`. -/
theorem endAround_modEq (x y : Nat) : endAround x y ≡ x + y [MOD onesModulus] := by
  unfold endAround Nat.ModEq onesModulus
  omega

/-- A sum with its carry around the end has 16 bits again. -/
theorem endAround_le {x y : Nat} (boundX : x < 0x10000) (boundY : y < 0x10000) :
    endAround x y < 0x10000 := by
  unfold endAround
  omega

/-- Such a sum is zero only for zeros. -/
theorem endAround_eq_zero {x y : Nat} : endAround x y = 0 ↔ x = 0 ∧ y = 0 := by
  unfold endAround
  omega

/-- Adding up words this way gives a word. -/
theorem foldr_endAround_lt (values : List Nat) (bounds : ∀ value ∈ values, value < 0x10000) :
    values.foldr endAround 0 < 0x10000 := by
  induction values with
  | nil => decide
  | cons value rest ih =>
      exact endAround_le (bounds value List.mem_cons_self)
        (ih fun later member => bounds later (List.mem_cons_of_mem _ member))

/-- Adding up words this way gives their sum, modulo `2 ^ 16 - 1`. -/
theorem foldr_endAround_modEq (values : List Nat) :
    values.foldr endAround 0 ≡ values.sum [MOD onesModulus] := by
  induction values with
  | nil => exact Nat.ModEq.refl 0
  | cons value rest ih =>
      rw [List.foldr_cons, List.sum_cons]
      exact (endAround_modEq value _).trans (ih.add_left value)

/-- Adding up words this way gives zero only for zeros. -/
theorem foldr_endAround_eq_zero (values : List Nat) :
    values.foldr endAround 0 = 0 ↔ values.sum = 0 := by
  induction values with
  | nil => simp
  | cons value rest ih =>
      rw [List.foldr_cons, List.sum_cons, endAround_eq_zero, ih]
      omega

/-- The ones' complement sum is a word. -/
theorem onesSum_lt (bytes : List UInt8) : onesSum bytes < 0x10000 :=
  foldr_endAround_lt _ (words_lt bytes)

/-- The ones' complement sum is the plain one, modulo `2 ^ 16 - 1`. -/
theorem onesSum_modEq (bytes : List UInt8) : onesSum bytes ≡ wordSum bytes [MOD onesModulus] :=
  foldr_endAround_modEq _

/-- A sum is all ones exactly when the plain sum is a multiple of the modulus
and not zero. -/
theorem onesSum_eq_iff (bytes : List UInt8) :
    onesSum bytes = 0xFFFF ↔ wordSum bytes ≠ 0 ∧ wordSum bytes ≡ 0 [MOD onesModulus] := by
  have bound := onesSum_lt bytes
  have congruent := onesSum_modEq bytes
  have zero : onesSum bytes = 0 ↔ wordSum bytes = 0 := foldr_endAround_eq_zero _
  unfold Nat.ModEq onesModulus at *
  omega

/-! ## Sums of parts -/

@[simp] theorem wordSum_nil : wordSum [] = 0 := rfl

/-- A last byte on its own is the high byte of a word. -/
theorem wordSum_singleton (high : UInt8) : wordSum [high] = high.toNat * 256 := by
  simp [wordSum, words]

/-- The first two bytes are a word of the sum. -/
theorem wordSum_cons_cons (high low : UInt8) (rest : List UInt8) :
    wordSum (high :: low :: rest) = high.toNat * 256 + low.toNat + wordSum rest := by
  simp [wordSum, words]

/-- A cut behind an even number of bytes splits the sum. -/
theorem wordSum_append {front : List UInt8} (even : front.length % 2 = 0) (back : List UInt8) :
    wordSum (front ++ back) = wordSum front + wordSum back := by
  induction front using words.induct with
  | case1 => simp
  | case2 => simp at even
  | case3 high low rest ih =>
      simp only [List.length_cons] at even
      simp only [List.cons_append, wordSum_cons_cons, ih (by omega)]
      omega

/-- Zero bytes add nothing. -/
theorem wordSum_replicate_zero (n : Nat) : wordSum (List.replicate n 0) = 0 := by
  induction n using Nat.strongRecOn with
  | ind n ih =>
      obtain _ | _ | n := n
      · rfl
      · rfl
      · rw [List.replicate_succ, List.replicate_succ, wordSum_cons_cons, ih n (by omega),
          UInt8.toNat_zero]

/-- Padding with zero bytes does not change the sum. -/
theorem wordSum_append_zeros (bytes : List UInt8) (n : Nat) :
    wordSum (bytes ++ List.replicate n 0) = wordSum bytes := by
  induction bytes using words.induct with
  | case1 => exact wordSum_replicate_zero n
  | case2 high =>
      cases n with
      | zero => rfl
      | succ n =>
          rw [List.replicate_succ, List.singleton_append, wordSum_cons_cons,
            wordSum_replicate_zero, wordSum_singleton, UInt8.toNat_zero, Nat.add_zero]
  | case3 high low rest ih => simp only [List.cons_append, wordSum_cons_cons, ih]

/-- A byte in front moves every other byte to the other half of its word, which
multiplies their sum by 256. -/
theorem wordSum_cons_modEq (first : UInt8) (rest : List UInt8) :
    wordSum (first :: rest) ≡ 256 * (first.toNat + wordSum rest) [MOD onesModulus] := by
  induction rest generalizing first with
  | nil =>
      rw [wordSum_singleton, wordSum_nil, Nat.add_zero, Nat.mul_comm]
  | cons second rest ih =>
      have shifted := ih second
      rw [wordSum_cons_cons]
      unfold Nat.ModEq onesModulus at *
      omega

/-- An even number of zero bytes in front does not change the sum. -/
theorem wordSum_zeros_append_even {n : Nat} (even : n % 2 = 0) (bytes : List UInt8) :
    wordSum (List.replicate n 0 ++ bytes) = wordSum bytes := by
  rw [wordSum_append (by rwa [List.length_replicate]), wordSum_replicate_zero, Nat.zero_add]

/-- An odd number of zero bytes in front multiplies the sum by 256. -/
theorem wordSum_zeros_append_odd {n : Nat} (odd : n % 2 = 1) (bytes : List UInt8) :
    wordSum (List.replicate n 0 ++ bytes) ≡ 256 * wordSum bytes [MOD onesModulus] := by
  obtain ⟨k, rfl⟩ : ∃ k, n = k + 1 := ⟨n - 1, by omega⟩
  rw [List.replicate_succ', List.append_assoc, wordSum_zeros_append_even (by omega),
    List.singleton_append]
  have shifted := wordSum_cons_modEq 0 bytes
  rwa [UInt8.toNat_zero, Nat.zero_add] at shifted

/-- A string whose sum is zero has only zero bytes. -/
theorem wordSum_eq_zero_iff (bytes : List UInt8) : wordSum bytes = 0 ↔ ∀ byte ∈ bytes, byte = 0 := by
  have isZero (byte : UInt8) : byte = 0 ↔ byte.toNat = 0 := UInt8.toNat_inj.symm
  induction bytes using words.induct with
  | case1 => simp
  | case2 high => simp [wordSum_singleton, isZero]
  | case3 high low rest ih =>
      rw [wordSum_cons_cons, List.forall_mem_cons, List.forall_mem_cons, isZero, isZero]
      refine Iff.trans ?_ (and_congr_right fun _ => and_congr_right fun _ => ih)
      omega

end CommunicationProtocols.Library
